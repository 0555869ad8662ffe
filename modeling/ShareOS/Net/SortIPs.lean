import ShareOS.Go.Runtime

/-!
# Net — `sortIPs`

`sortIPs` orders the addresses of the startup banner: the strings that do
not parse as an IP first, in their order, then the addresses sorted by
`byLastOctetValue` — a higher last octet first, `127.0.0.1` last. The
parsing and printing of addresses belong to package `net` and are the
parameters `NetIP`; `sort.Sort` belongs to package `sort` and is any
function of the `Less` it is handed that keeps its documented contract
(`SortContract`): a panic of `Less` is passed on, and otherwise the
result is a permutation in which no element comes before one it is
`Less` than.

`sort.Sort` promises an order only when `Less` is a strict weak order.
`byLastOctetValue_isStrictWeakOrder` proves it is one on IPv4 addresses,
where `Less` never panics and compares one key, `lastOctetKey`. On an
address whose `To4()` is nil, an IPv6 one, `Less` indexes an empty slice
and panics. `sortIPs_order` gives the whole result: a single entry comes
back as it is, a list of IPv4 addresses in banner order, and a panic
only from an address whose `To4()` is nil.
-/

namespace ShareOS

open ShareOS.Go

/-- What `sortIPs` uses of package `net`, over its type `ι` of addresses. -/
structure NetIP (ι : Type) where
  /-- `net.ParseIP(s)`, `nil` as `none`. -/
  parseIP : String → Option ι
  /-- `ip.String()`. -/
  ipString : ι → String
  /-- `ip.To4()`: the four bytes of an IPv4 address, `nil` as `none`. -/
  to4 : ι → Option (Fin 4 → UInt8)

namespace NetIP

variable {ι : Type} (net : NetIP ι)

/-- `byLastOctetValue.Less(i, j)` on `a = n[i]` and `b = n[j]`. Indexing
the nil `To4()` of an IPv6 address panics. -/
def lessByLastOctet (a b : ι) : Except GoError Bool :=
  if net.ipString a = "127.0.0.1" then .ok false
  else if net.ipString b = "127.0.0.1" then .ok true
  else
    match net.to4 a, net.to4 b with
    | some x, some y => .ok (decide (y 3 < x 3))
    | _, _ => .error (.runtimePanic "index out of range [3] with length 0")

/-- The key `byLastOctetValue` sorts by, in descending order: `0` for
`127.0.0.1`, the last octet plus one for any other IPv4 address. -/
def lastOctetKey (a : ι) : Nat :=
  if net.ipString a = "127.0.0.1" then 0
  else
    match net.to4 a with
    | some x => (x 3).toNat + 1
    | none => 0

/-- On IPv4 addresses `Less` compares `lastOctetKey`, and does not
panic. -/
theorem lessByLastOctet_eq {a b : ι} (ha : (net.to4 a).isSome) (hb : (net.to4 b).isSome) :
    net.lessByLastOctet a b = .ok (decide (net.lastOctetKey b < net.lastOctetKey a)) := by
  obtain ⟨x, hx⟩ := Option.isSome_iff_exists.mp ha
  obtain ⟨y, hy⟩ := Option.isSome_iff_exists.mp hb
  unfold lessByLastOctet lastOctetKey
  by_cases h1 : net.ipString a = "127.0.0.1" <;> by_cases h2 : net.ipString b = "127.0.0.1" <;>
    simp [h1, h2, hx, hy, UInt8.lt_def, BitVec.lt_def, UInt8.toNat]

/-- `Less` panics only on two addresses other than `127.0.0.1`, one of
which has a nil `To4()`. -/
theorem lessByLastOctet_error {a b : ι} {e : GoError} (h : net.lessByLastOctet a b = .error e) :
    e = .runtimePanic "index out of range [3] with length 0" ∧
      ((net.to4 a = none ∧ net.ipString a ≠ "127.0.0.1") ∨
        (net.to4 b = none ∧ net.ipString b ≠ "127.0.0.1")) := by
  unfold lessByLastOctet at h
  by_cases h1 : net.ipString a = "127.0.0.1"
  · rw [if_pos h1] at h; cases h
  by_cases h2 : net.ipString b = "127.0.0.1"
  · rw [if_neg h1, if_pos h2] at h; cases h
  rw [if_neg h1, if_neg h2] at h
  rcases ha : net.to4 a with _ | x <;> rcases hb : net.to4 b with _ | y <;>
    rw [ha, hb] at h <;> cases h
  · exact ⟨rfl, .inl ⟨rfl, h1⟩⟩
  · exact ⟨rfl, .inl ⟨rfl, h1⟩⟩
  · exact ⟨rfl, .inr ⟨rfl, h2⟩⟩

/-- **`byLastOctetValue` is a strict weak order on IPv4 addresses.** On
them its `Less` never panics and compares `lastOctetKey` — `127.0.0.1`
lowest, any other address by its last octet — so it is irreflexive,
transitive, and its incomparability is transitive: the precondition of
`sort.Sort`. -/
theorem byLastOctetValue_isStrictWeakOrder :
    (∀ a b : {a : ι // (net.to4 a).isSome}, net.lessByLastOctet a.1 b.1 =
        .ok (decide (net.lastOctetKey b.1 < net.lastOctetKey a.1))) ∧
      IsStrictWeakOrder {a : ι // (net.to4 a).isSome}
        fun a b => net.lessByLastOctet a.1 b.1 = .ok true := by
  have hkey : ∀ a b : {a : ι // (net.to4 a).isSome}, net.lessByLastOctet a.1 b.1 = .ok true ↔
      net.lastOctetKey b.1 < net.lastOctetKey a.1 := fun a b => by
    simp [net.lessByLastOctet_eq a.2 b.2]
  refine ⟨fun a b => net.lessByLastOctet_eq a.2 b.2, ?_⟩
  simp only [hkey]
  exact { irrefl := fun a => lt_irrefl _
          trans := fun _ _ _ h₁ h₂ => lt_trans h₂ h₁
          incomp_trans := fun _ _ _ h₁ h₂ => by omega }

/-- What a sort keeping `sort.Sort`'s contract for `byLastOctetValue`
returns on IPv4 addresses: a permutation, in descending `lastOctetKey`. -/
theorem sortContract_lastOctetKey {sort : List ι → Except GoError (List ι)}
    (hsort : SortContract (fun a => (net.to4 a).isSome) net.lessByLastOctet sort)
    {l : List ι} (hl : ∀ a ∈ l, (net.to4 a).isSome) :
    ∃ l', sort l = .ok l' ∧ l'.Perm l ∧
      l'.Pairwise fun a b => net.lastOctetKey b ≤ net.lastOctetKey a := by
  obtain ⟨l', hs, hperm, hpair⟩ := (hsort l).2 hl
  refine ⟨l', hs, hperm, hpair.imp_of_mem fun ha hb hab => ?_⟩
  rw [net.lessByLastOctet_eq (hl _ (hperm.subset hb)) (hl _ (hperm.subset ha))] at hab
  simpa using hab

/-- An insertion sort by descending `lastOctetKey`, after asking `Less`
about every pair, keeps `sort.Sort`'s contract for `byLastOctetValue`. -/
theorem insertionSort_lastOctetKey_sortContract :
    SortContract (fun a => (net.to4 a).isSome) net.lessByLastOctet
      (checkedSort (List.insertionSort fun a b => net.lastOctetKey b ≤ net.lastOctetKey a)
        net.lessByLastOctet) := by
  have : IsTotal ι fun a b => net.lastOctetKey b ≤ net.lastOctetKey a := ⟨fun _ _ => le_total _ _⟩
  have : IsTrans ι fun a b => net.lastOctetKey b ≤ net.lastOctetKey a :=
    ⟨fun _ _ _ h₁ h₂ => le_trans h₂ h₁⟩
  refine checkedSort_sortContract _ _ _ _ (List.perm_insertionSort _) (List.sorted_insertionSort _)
    (fun a b ha hb => ⟨_, net.lessByLastOctet_eq ha hb⟩) fun a b ha hb hle => ?_
  rw [net.lessByLastOctet_eq hb ha]
  simpa only [ne_eq, Except.ok.injEq, decide_eq_true_eq, not_lt] using hle

end NetIP

/-- `sortIPs(ipList)`, with `sort.Sort` as `sortSort`, handed
`byLastOctetValue`'s `Less`; a panic of the sort is the result. -/
def sortIPs {ι : Type} (net : NetIP ι)
    (sortSort : (ι → ι → Except GoError Bool) → List ι → Except GoError (List ι))
    (ipList : List String) : Except GoError (List String) :=
  if ipList.length = 1 then .ok ipList
  else
    (sortSort net.lessByLastOctet (ipList.filterMap net.parseIP)).map fun ipV4s =>
      ipList.filter (fun ip => (net.parseIP ip).isNone) ++ ipV4s.map net.ipString

/-- **The banner's order.** With `sort.Sort` keeping its contract,
`sortIPs` returns a single entry as it is; for any other list of entries
whose addresses are all IPv4, the strings that are not addresses, in
their order, then every address once, printed by `String()`, a higher
last octet before a lower and `127.0.0.1` after all the others; and it
panics only through an address other than `127.0.0.1` whose `To4()` is
nil. -/
theorem sortIPs_order {ι : Type} (net : NetIP ι)
    (sortSort : (ι → ι → Except GoError Bool) → List ι → Except GoError (List ι))
    (hsort : SortContract (fun a => (net.to4 a).isSome) net.lessByLastOctet
      (sortSort net.lessByLastOctet))
    (ipList : List String) :
    (ipList.length = 1 → sortIPs net sortSort ipList = .ok ipList) ∧
      (ipList.length ≠ 1 → (∀ s ∈ ipList, ∀ a, net.parseIP s = some a → (net.to4 a).isSome) →
        ∃ ips : List ι, sortIPs net sortSort ipList =
            .ok (ipList.filter (fun ip => (net.parseIP ip).isNone) ++ ips.map net.ipString) ∧
          ips.Perm (ipList.filterMap net.parseIP) ∧
          ips.Pairwise fun a b => net.lastOctetKey b ≤ net.lastOctetKey a) ∧
      (∀ e, sortIPs net sortSort ipList = .error e →
        e = .runtimePanic "index out of range [3] with length 0" ∧
          ∃ s ∈ ipList, ∃ a, net.parseIP s = some a ∧ net.to4 a = none ∧
            net.ipString a ≠ "127.0.0.1") := by
  unfold sortIPs
  refine ⟨fun h1 => if_pos h1, fun h1 hv4 => ?_, fun e he => ?_⟩
  · obtain ⟨ips, hs, hperm, hpair⟩ := net.sortContract_lastOctetKey hsort fun a ha => by
      obtain ⟨s, hs, hp⟩ := List.mem_filterMap.mp ha
      exact hv4 s hs a hp
    exact ⟨ips, by rw [if_neg h1, hs]; rfl, hperm, hpair⟩
  · split_ifs at he with h1
    rcases hs : sortSort net.lessByLastOctet (ipList.filterMap net.parseIP) with e' | _ <;>
      rw [hs] at he <;> cases he
    obtain ⟨a, ha, b, hb, hab⟩ := (hsort _).1 e hs
    obtain ⟨rfl, hnil⟩ := net.lessByLastOctet_error hab
    refine ⟨rfl, ?_⟩
    rcases hnil with ⟨hn, hl⟩ | ⟨hn, hl⟩
    · obtain ⟨s, hs, hp⟩ := List.mem_filterMap.mp ha
      exact ⟨s, hs, a, hp, hn, hl⟩
    · obtain ⟨s, hs, hp⟩ := List.mem_filterMap.mp hb
      exact ⟨s, hs, b, hp, hn, hl⟩

/-- A host's addresses: the loopback, `10.0.0.5` and the IPv6 loopback,
each IPv4 address its own last octet. -/
def bannerNet : NetIP UInt8 where
  parseIP s :=
    if s = "127.0.0.1" then some 1 else if s = "10.0.0.5" then some 5
    else if s = "::1" then some 0 else none
  ipString n := if n = 1 then "127.0.0.1" else if n = 5 then "10.0.0.5" else "::1"
  to4 n := if n = 0 then none else some fun _ => n

/-- `sort.Sort` for the banner: an insertion sort by `lastOctetKey`,
asking `Less` about every pair first. -/
def bannerSort : (UInt8 → UInt8 → Except GoError Bool) → List UInt8 → Except GoError (List UInt8) :=
  checkedSort (List.insertionSort fun a b => bannerNet.lastOctetKey b ≤ bannerNet.lastOctetKey a)

/-- One IPv6 entry alone, the loopback, a name and an address, and an
IPv6 address among IPv4 ones. -/
theorem sortIPs_order_banner :
    sortIPs bannerNet bannerSort ["::1"] = .ok ["::1"] ∧
      (∃ ips : List UInt8, sortIPs bannerNet bannerSort ["127.0.0.1", "minio", "10.0.0.5"] =
          .ok (["127.0.0.1", "minio", "10.0.0.5"].filter (fun ip => (bannerNet.parseIP ip).isNone) ++
            ips.map bannerNet.ipString) ∧
        ips.Perm (["127.0.0.1", "minio", "10.0.0.5"].filterMap bannerNet.parseIP) ∧
        ips.Pairwise fun a b => bannerNet.lastOctetKey b ≤ bannerNet.lastOctetKey a) ∧
      (GoError.runtimePanic "index out of range [3] with length 0" =
          .runtimePanic "index out of range [3] with length 0" ∧
        ∃ s ∈ ["::1", "10.0.0.5"], ∃ a, bannerNet.parseIP s = some a ∧ bannerNet.to4 a = none ∧
          bannerNet.ipString a ≠ "127.0.0.1") :=
  ⟨(sortIPs_order bannerNet bannerSort bannerNet.insertionSort_lastOctetKey_sortContract
      ["::1"]).1 rfl,
    (sortIPs_order bannerNet bannerSort bannerNet.insertionSort_lastOctetKey_sortContract
      ["127.0.0.1", "minio", "10.0.0.5"]).2.1 (by decide) (by decide),
    (sortIPs_order bannerNet bannerSort bannerNet.insertionSort_lastOctetKey_sortContract
      ["::1", "10.0.0.5"]).2.2 _ rfl⟩

/-- The name first, then the address, the loopback last. -/
example : sortIPs bannerNet bannerSort ["127.0.0.1", "minio", "10.0.0.5"] =
    .ok ["minio", "10.0.0.5", "127.0.0.1"] := rfl

/-- An IPv6 address among IPv4 ones makes `Less` panic. -/
example : sortIPs bannerNet bannerSort ["::1", "10.0.0.5"] =
    .error (.runtimePanic "index out of range [3] with length 0") := rfl

end ShareOS
