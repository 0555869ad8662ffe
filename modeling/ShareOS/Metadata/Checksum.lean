import ShareOS.Go.Runtime

/-!
# Metadata — part checksums of `xl.json`

`erasureInfo.AddCheckSumInfo` and `erasureInfo.GetCheckSumInfo` of
`src/cmd/xl-v1-metadata.go`, the hash algorithms they carry
(`isValidHashAlgo`, `getDefaultBitRotAlgo`) and the hash constructor
that honours them (`newHash`, `newHashWriters` of
`src/cmd/erasure-utils.go`).

The `Checksum` slice is a finite map from part names to checksums in
disguise: `AddCheckSumInfo` replaces the first entry with the same name
or appends, and `GetCheckSumInfo` returns the first entry with the name,
or a stub carrying the process's bit-rot algorithm. The abstraction
`ErasureInfo.lookup` reads the slice as that map, and
`lookup_addCheckSumInfo` says that `AddCheckSumInfo` is `Function.update`
on it — also on slices read back from disk with repeated names, since
replace-first and find-first agree. Names stay pairwise distinct under
`AddCheckSumInfo` (`ChecksumTable` carries that invariant), and a table
with distinct names is exactly its map.

The parts table of the same file, `objectPartInfo`, comes with the
`sort.Interface` `byObjectPartNumber`, ordering parts by `Number`.
`sort.Sort` is not stable, so for two parts of one number the order it
gives is not fixed; `byObjectPartNumber_sort_unique` shows that distinct
part numbers fix it: every sort that keeps `sort.Sort`'s contract
(`SortContract`) returns the same list, in strictly increasing number.
-/

namespace ShareOS

open ShareOS.Go

/-- HashAlgo - represents a supported hashing algorithm for bitrot
verification (Go: `type HashAlgo string`). -/
structure HashAlgo where
  name : String
  deriving DecidableEq, Repr

/-- HashBlake2b represents the Blake 2b hashing algorithm. -/
def hashBlake2b : HashAlgo := ⟨"blake2b"⟩

/-- HashSha256 represents the SHA256 hashing algorithm. -/
def hashSha256 : HashAlgo := ⟨"sha256"⟩

/-- isValidHashAlgo - checks if the hash algorithm is valid (known and
used). -/
def isValidHashAlgo (algo : HashAlgo) : Bool :=
  algo = hashSha256 ∨ algo = hashBlake2b

/-- Get the default bit-rot algo depending on the architecture
(`goarch` is `runtime.GOARCH`): sha256 on arm64, blake2b elsewhere. -/
def getDefaultBitRotAlgo (goarch : String) : HashAlgo :=
  if goarch = "arm64" then hashSha256 else hashBlake2b

/-- The hash functions `newHash` allocates. -/
inductive HashKind where
  | sha256
  | blake2b512
  deriving DecidableEq, Repr

/-- newHash - a newly allocated hash for the algorithm: sha256 for
`HashSha256`, blake2b-512 for `HashBlake2b` and, by default, for every
other name. -/
def newHash (algo : HashAlgo) : HashKind :=
  if algo = hashSha256 then .sha256 else .blake2b512

/-- newHashWriters - a slice of `diskCount` hashes; `make` panics on a
negative count. -/
def newHashWriters (diskCount : Int) (algo : HashAlgo) : Except GoError (List HashKind) :=
  if diskCount < 0 then .error (.runtimePanic "makeslice: len out of range")
  else .ok (List.replicate diskCount.toNat (newHash algo))

/-- checkSumInfo - carries checksums of individual scattered parts per
disk. -/
structure CheckSumInfo where
  name : String
  algorithm : HashAlgo
  hash : String
  deriving DecidableEq, Repr

/-- erasureInfo - carries erasure coding related information, block
distribution and checksums. Of its fields only `Checksum` is read or
written by the functions modelled here. -/
structure ErasureInfo where
  checksum : List CheckSumInfo
  deriving DecidableEq, Repr

/-- The loop of `AddCheckSumInfo`: replace the first entry with the
name of `ckSumInfo`, or append `ckSumInfo`. -/
def upsertCheckSum (ckSumInfo : CheckSumInfo) : List CheckSumInfo → List CheckSumInfo
  | [] => [ckSumInfo]
  | sum :: rest =>
    if sum.name = ckSumInfo.name then ckSumInfo :: rest else sum :: upsertCheckSum ckSumInfo rest

/-- AddCheckSum - add checksum of a part. -/
def ErasureInfo.addCheckSumInfo (e : ErasureInfo) (ckSumInfo : CheckSumInfo) : ErasureInfo :=
  { e with checksum := upsertCheckSum ckSumInfo e.checksum }

/-- The first checksum entry named `partName`: the loop of
`GetCheckSumInfo`, and the table read as a finite map. -/
def ErasureInfo.lookup (e : ErasureInfo) (partName : String) : Option CheckSumInfo :=
  e.checksum.find? fun sum => sum.name = partName

/-- GetCheckSumInfo - get checksum of a part, or a stub with the
process's bit-rot algorithm and an empty hash. -/
def ErasureInfo.getCheckSumInfo (bitRotAlgo : HashAlgo) (e : ErasureInfo) (partName : String) :
    CheckSumInfo :=
  (e.lookup partName).getD { name := "", algorithm := bitRotAlgo, hash := "" }

/-! ## Algorithms -/

/-- The default algorithm of every architecture passes `isValidHashAlgo`,
so a stub from `GetCheckSumInfo` always names a valid algorithm. -/
theorem isValidHashAlgo_getDefaultBitRotAlgo (goarch : String) :
    isValidHashAlgo (getDefaultBitRotAlgo goarch) = true := by
  unfold getDefaultBitRotAlgo
  split <;> simp [isValidHashAlgo]

/-- `newHash` allocates sha256 exactly for `HashSha256`: any other name,
valid or not, falls to blake2b. -/
theorem newHash_eq_blake2b512_iff (algo : HashAlgo) :
    newHash algo = .blake2b512 ↔ algo ≠ hashSha256 := by
  unfold newHash
  split <;> simp_all

/-! ## The table as a finite map -/

/-- Lookup after `AddCheckSumInfo`: the added entry under its name, the
old lookup elsewhere. -/
theorem find?_upsertCheckSum (x : CheckSumInfo) (l : List CheckSumInfo) (n : String) :
    (upsertCheckSum x l).find? (fun sum => sum.name = n) =
      if x.name = n then some x else l.find? fun sum => sum.name = n := by
  induction l with
  | nil => simp [upsertCheckSum]
  | cons sum rest ih =>
    by_cases hs : sum.name = x.name
    · by_cases hx : x.name = n <;> simp [upsertCheckSum, hs, hx]
    · by_cases hn : sum.name = n
      · subst hn
        simp [upsertCheckSum, hs, Ne.symm hs]
      · simp [upsertCheckSum, hs, hn, ih]

/-- **Refinement.** `AddCheckSumInfo` is `Function.update` on the map the
table stands for. -/
theorem lookup_addCheckSumInfo (e : ErasureInfo) (x : CheckSumInfo) :
    (e.addCheckSumInfo x).lookup = Function.update e.lookup x.name (some x) := by
  funext n
  simp only [ErasureInfo.lookup, ErasureInfo.addCheckSumInfo, find?_upsertCheckSum,
    Function.update_apply]
  by_cases h : x.name = n
  · simp [h]
  · simp [h, Ne.symm h]

/-- After a sequence of adds, a name maps to the last added entry with
that name, or to what it mapped to before. -/
theorem lookup_foldl_addCheckSumInfo (s : List CheckSumInfo) (e : ErasureInfo) (n : String) :
    (s.foldl ErasureInfo.addCheckSumInfo e).lookup n =
      (s.reverse.find? fun x => x.name = n).or (e.lookup n) := by
  induction s generalizing e with
  | nil => simp
  | cons x rest ih =>
    rw [List.foldl_cons, ih, lookup_addCheckSumInfo, Function.update_apply, List.reverse_cons,
      List.find?_append, Option.or_assoc]
    by_cases hx : x.name = n
    · simp [hx]
    · simp [hx, Ne.symm hx]

/-! ## Names -/

/-- The part names after `AddCheckSumInfo`: unchanged when the name is
present (the replaced entry keeps it), one appended otherwise. -/
theorem names_upsertCheckSum (x : CheckSumInfo) (l : List CheckSumInfo) :
    (upsertCheckSum x l).map (·.name) =
      if x.name ∈ l.map (·.name) then l.map (·.name) else l.map (·.name) ++ [x.name] := by
  induction l with
  | nil => simp [upsertCheckSum]
  | cons sum rest ih =>
    by_cases hs : sum.name = x.name
    · simp [upsertCheckSum, hs]
    · simp only [upsertCheckSum, if_neg hs, List.map_cons, ih, List.mem_cons]
      by_cases hm : x.name ∈ rest.map (·.name)
      · simp [hm]
      · simp [hm, Ne.symm hs]

theorem nodup_names_addCheckSumInfo {e : ErasureInfo} (h : (e.checksum.map (·.name)).Nodup)
    (x : CheckSumInfo) : ((e.addCheckSumInfo x).checksum.map (·.name)).Nodup := by
  rw [ErasureInfo.addCheckSumInfo, names_upsertCheckSum]
  split_ifs with hm
  · exact h
  · exact h.append (List.nodup_singleton _) fun a ha hb => by
      rw [List.mem_singleton] at hb
      exact hm (hb ▸ ha)

/-- The number of entries after `AddCheckSumInfo`: one more exactly when
the name is new. -/
theorem length_addCheckSumInfo (e : ErasureInfo) (x : CheckSumInfo) :
    (e.addCheckSumInfo x).checksum.length =
      e.checksum.length + if x.name ∈ e.checksum.map (·.name) then 0 else 1 := by
  rw [← List.length_map _ (·.name), ErasureInfo.addCheckSumInfo, names_upsertCheckSum,
    ← List.length_map e.checksum (·.name)]
  split <;> simp

theorem nodup_names_foldl_addCheckSumInfo (s : List CheckSumInfo) {e : ErasureInfo}
    (h : (e.checksum.map (·.name)).Nodup) :
    ((s.foldl ErasureInfo.addCheckSumInfo e).checksum.map (·.name)).Nodup := by
  induction s generalizing e with
  | nil => exact h
  | cons x rest ih => exact ih (nodup_names_addCheckSumInfo h x)

/-- The names after `AddCheckSumInfo`, as a set: the old ones and the
added one. -/
theorem names_toFinset_addCheckSumInfo (e : ErasureInfo) (x : CheckSumInfo) :
    ((e.addCheckSumInfo x).checksum.map (·.name)).toFinset =
      insert x.name (e.checksum.map (·.name)).toFinset := by
  rw [ErasureInfo.addCheckSumInfo, names_upsertCheckSum]
  split_ifs with hm
  · exact (Finset.insert_eq_of_mem (List.mem_toFinset.mpr hm)).symm
  · ext a
    simp [or_comm]

/-- After a sequence of adds the table has grown by the number of names
added that it did not hold before. -/
theorem length_foldl_addCheckSumInfo (s : List CheckSumInfo) (e : ErasureInfo) :
    (s.foldl ErasureInfo.addCheckSumInfo e).checksum.length =
      e.checksum.length +
        ((s.map (·.name)).toFinset \ (e.checksum.map (·.name)).toFinset).card := by
  induction s generalizing e with
  | nil => simp
  | cons x rest ih =>
    rw [List.foldl_cons, ih, length_addCheckSumInfo, names_toFinset_addCheckSumInfo,
      List.map_cons, List.toFinset_cons]
    by_cases hm : x.name ∈ e.checksum.map (·.name)
    · have hN := List.mem_toFinset.mpr hm
      rw [if_pos hm, Finset.insert_eq_of_mem hN, Finset.insert_sdiff_of_mem _ hN, Nat.add_zero]
    · have hN : x.name ∉ (e.checksum.map (·.name)).toFinset := mt List.mem_toFinset.mp hm
      rw [if_neg hm, Finset.insert_sdiff_of_not_mem _ hN, Finset.sdiff_insert,
        Finset.card_insert_eq_ite, Finset.card_erase_eq_ite]
      split_ifs with hr
      · have := Finset.card_pos.mpr ⟨_, hr⟩
        omega
      · omega

/-- Appending a name and keeping first occurrences: the name goes at the
end unless it already occurs. -/
theorem reverse_dedup_reverse_append_singleton (l : List String) (a : String) :
    (l ++ [a]).reverse.dedup.reverse =
      if a ∈ l then l.reverse.dedup.reverse else l.reverse.dedup.reverse ++ [a] := by
  rw [List.reverse_append, List.reverse_singleton, List.singleton_append]
  split_ifs with ha
  · rw [List.dedup_cons_of_mem (List.mem_reverse.mpr ha)]
  · rw [List.dedup_cons_of_not_mem (mt List.mem_reverse.mp ha), List.reverse_cons]

/-- **The slice keeps first-insertion order.** After any sequence of
`AddCheckSumInfo` calls on a slice with distinct part names, the slice
lists each part name once, in the order the names were first added
(`l.reverse.dedup.reverse` keeps the first occurrence of each element):
replacing a part's entry never moves it. -/
theorem names_foldl_addCheckSumInfo (s : List CheckSumInfo) {e : ErasureInfo}
    (h : (e.checksum.map (·.name)).Nodup) :
    (s.foldl ErasureInfo.addCheckSumInfo e).checksum.map (·.name) =
      ((e.checksum.map (·.name) ++ s.map (·.name)).reverse.dedup).reverse := by
  induction s using List.reverseRecOn with
  | nil =>
    rw [List.map_nil, List.append_nil, (List.nodup_reverse.mpr h).dedup, List.reverse_reverse]
    rfl
  | append_singleton s x ih =>
    rw [List.foldl_append, List.foldl_cons, List.foldl_nil, ErasureInfo.addCheckSumInfo,
      names_upsertCheckSum, ih, List.map_append, List.map_singleton, ← List.append_assoc,
      reverse_dedup_reverse_append_singleton]
    simp only [List.mem_reverse, List.mem_dedup]

/-- Three adds, the third replacing the first part's entry. -/
theorem names_foldl_addCheckSumInfo_replace :
    (([⟨"part.1", hashBlake2b, "aa"⟩, ⟨"part.2", hashBlake2b, "bb"⟩,
        ⟨"part.1", hashSha256, "cc"⟩] : List CheckSumInfo).foldl
        ErasureInfo.addCheckSumInfo ⟨[]⟩).checksum.map (·.name) =
      ((([] : List CheckSumInfo).map (·.name) ++
        ["part.1", "part.2", "part.1"]).reverse.dedup).reverse :=
  names_foldl_addCheckSumInfo _ List.nodup_nil

/-- **The checksum slice is a finite map.** After any sequence `s` of
`AddCheckSumInfo` calls: `GetCheckSumInfo` of a name is the last entry of
`s` with that name, or what it was before; distinct names stay distinct;
and the slice grows by exactly the number of new names. -/
theorem addCheckSumInfo_foldl (bitRotAlgo : HashAlgo) (e : ErasureInfo) (s : List CheckSumInfo) :
    (∀ n, (s.foldl ErasureInfo.addCheckSumInfo e).getCheckSumInfo bitRotAlgo n =
        (s.reverse.find? fun x => x.name = n).getD (e.getCheckSumInfo bitRotAlgo n)) ∧
    ((e.checksum.map (·.name)).Nodup →
        ((s.foldl ErasureInfo.addCheckSumInfo e).checksum.map (·.name)).Nodup) ∧
    (s.foldl ErasureInfo.addCheckSumInfo e).checksum.length =
      e.checksum.length +
        ((s.map (·.name)).toFinset \ (e.checksum.map (·.name)).toFinset).card := by
  refine ⟨fun n => ?_, nodup_names_foldl_addCheckSumInfo s, length_foldl_addCheckSumInfo s e⟩
  rw [ErasureInfo.getCheckSumInfo, lookup_foldl_addCheckSumInfo]
  cases s.reverse.find? fun x => x.name = n <;> rfl

/-! ## Tables with distinct names -/

/-- An `erasureInfo` whose checksum entries have pairwise distinct part
names: the shape that `AddCheckSumInfo` keeps. -/
structure ChecksumTable where
  info : ErasureInfo
  names_nodup : (info.checksum.map (·.name)).Nodup

/-- `AddCheckSumInfo` on a table with distinct names. -/
def ChecksumTable.addCheckSumInfo (t : ChecksumTable) (x : CheckSumInfo) : ChecksumTable :=
  ⟨t.info.addCheckSumInfo x, nodup_names_addCheckSumInfo t.names_nodup x⟩

/-- A table with distinct names is exactly its map: an entry is found
under a name iff the table holds it under that name. -/
theorem ChecksumTable.lookup_eq_some_iff (t : ChecksumTable) (n : String) (x : CheckSumInfo) :
    t.info.lookup n = some x ↔ x ∈ t.info.checksum ∧ x.name = n := by
  constructor
  · intro h
    exact ⟨List.mem_of_find?_eq_some h, by simpa using List.find?_some h⟩
  · rintro ⟨hx, rfl⟩
    obtain ⟨y, hy⟩ := Option.isSome_iff_exists.mp
      (List.find?_isSome.mpr ⟨x, hx, by simp⟩ : (t.info.lookup x.name).isSome)
    have hyn : y.name = x.name := by simpa using List.find?_some hy
    rw [ErasureInfo.lookup, hy, List.inj_on_of_nodup_map t.names_nodup (List.mem_of_find?_eq_some hy) hx hyn]

/-! ## Parts -/

/-- objectPartInfo Info of each part kept in the multipart metadata
file after CompleteMultipartUpload() is called. -/
structure ObjectPartInfo where
  number : Int
  name : String
  etag : String
  size : Int
  deriving DecidableEq, Repr

/-- `byObjectPartNumber.Less(i, j)` on `a = t[i]` and `b = t[j]`; it
never panics. -/
def byObjectPartNumberLess (a b : ObjectPartInfo) : Except GoError Bool :=
  .ok (decide (a.number < b.number))

/-- **One order for distinct part numbers.** For parts whose numbers are
distinct, any two sorts that keep `sort.Sort`'s contract for
`byObjectPartNumber` return the same list, in strictly increasing part
number. -/
theorem byObjectPartNumber_sort_unique
    (sort₁ sort₂ : (ObjectPartInfo → ObjectPartInfo → Except GoError Bool) →
      List ObjectPartInfo → Except GoError (List ObjectPartInfo))
    (h₁ : SortContract (fun _ => True) byObjectPartNumberLess (sort₁ byObjectPartNumberLess))
    (h₂ : SortContract (fun _ => True) byObjectPartNumberLess (sort₂ byObjectPartNumberLess))
    (parts : List ObjectPartInfo) (hnum : (parts.map (·.number)).Nodup) :
    ∃ sorted, sort₁ byObjectPartNumberLess parts = .ok sorted ∧
      sort₂ byObjectPartNumberLess parts = .ok sorted ∧
      sorted.Pairwise fun a b => a.number < b.number := by
  have hsorted : ∀ sort, SortContract (fun _ => True) byObjectPartNumberLess sort →
      ∃ l, sort parts = .ok l ∧ l.Perm parts ∧ l.Pairwise fun a b => a.number < b.number := by
    intro sort h
    obtain ⟨l, hl, hp, hs⟩ := (h parts).2 fun _ _ => trivial
    have hne := List.pairwise_map.mp ((hp.map (·.number)).nodup_iff.mpr hnum)
    refine ⟨l, hl, hp, (hs.and hne).imp fun h => lt_of_le_of_ne ?_ h.2⟩
    simpa [byObjectPartNumberLess] using h.1
  obtain ⟨l₁, hl₁, hp₁, hs₁⟩ := hsorted _ h₁
  obtain ⟨l₂, hl₂, hp₂, hs₂⟩ := hsorted _ h₂
  have : IsAntisymm ObjectPartInfo fun a b => a.number < b.number :=
    ⟨fun _ _ hab hba => absurd (lt_trans hab hba) (lt_irrefl _)⟩
  rw [List.eq_of_perm_of_sorted (hp₂.trans hp₁.symm) hs₂ hs₁] at hl₂
  exact ⟨l₁, hl₁, hl₂, hs₁⟩

/-- `sort.Sort` as an insertion sort by part number. -/
def insertionSortParts :
    (ObjectPartInfo → ObjectPartInfo → Except GoError Bool) →
      List ObjectPartInfo → Except GoError (List ObjectPartInfo) :=
  checkedSort (List.insertionSort fun a b => a.number ≤ b.number)

/-- `sort.Sort` as a merge sort by part number. -/
def mergeSortParts :
    (ObjectPartInfo → ObjectPartInfo → Except GoError Bool) →
      List ObjectPartInfo → Except GoError (List ObjectPartInfo) :=
  checkedSort fun l => l.mergeSort fun a b => decide (a.number ≤ b.number)

theorem insertionSortParts_sortContract :
    SortContract (fun _ => True) byObjectPartNumberLess
      (insertionSortParts byObjectPartNumberLess) := by
  have : IsTotal ObjectPartInfo fun a b => a.number ≤ b.number := ⟨fun _ _ => le_total _ _⟩
  have : IsTrans ObjectPartInfo fun a b => a.number ≤ b.number := ⟨fun _ _ _ => le_trans⟩
  exact checkedSort_sortContract _ _ _ _ (List.perm_insertionSort _) (List.sorted_insertionSort _)
    (fun _ _ _ _ => ⟨_, rfl⟩) fun _ _ _ _ h => by simpa [byObjectPartNumberLess] using h

theorem mergeSortParts_sortContract :
    SortContract (fun _ => True) byObjectPartNumberLess (mergeSortParts byObjectPartNumberLess) :=
  checkedSort_sortContract _ _ _ _ (fun l => List.mergeSort_perm l _)
    (List.sorted_mergeSort (fun _ _ _ h₁ h₂ => by simp only [decide_eq_true_eq] at *; omega)
      fun _ _ => by simp only [Bool.or_eq_true, decide_eq_true_eq]; omega)
    (fun _ _ _ _ => ⟨_, rfl⟩) fun _ _ _ _ h => by simpa [byObjectPartNumberLess] using h

/-- Two parts uploaded out of order, an insertion sort against a merge
sort. -/
theorem byObjectPartNumber_sort_unique_two_parts :
    ∃ sorted, insertionSortParts byObjectPartNumberLess
        [⟨2, "part.2", "b", 5⟩, ⟨1, "part.1", "a", 5⟩] = .ok sorted ∧
      mergeSortParts byObjectPartNumberLess
        [⟨2, "part.2", "b", 5⟩, ⟨1, "part.1", "a", 5⟩] = .ok sorted ∧
      sorted.Pairwise fun a b => a.number < b.number :=
  byObjectPartNumber_sort_unique _ _ insertionSortParts_sortContract mergeSortParts_sortContract
    _ (by decide)

end ShareOS
