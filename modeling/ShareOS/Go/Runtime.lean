import Mathlib

/-!
# Go runtime — bytes, errors, writers

The parts of the Go runtime and standard library that the modelled
functions of `package cmd` lean on, at the precision those functions
observe them:

* `GoError` — the error values they return or pass through, with a Go
  runtime panic as one more constructor (no caller here recovers from a
  panic, so a run that panics ends with it);
* `Writer` — an `io.Writer` whose answer may depend on what it has
  accepted so far, with the `io.Writer` count bound carried as a field;
* `ioCopy` — `io.Copy(dst, bytes.NewReader(b))`, which goes through
  `bytes.Reader.WriteTo`: one `Write` of all of `b`, none if `b` is empty;
* `SortContract` — what `sort.Sort` promises, with a `Less` that may
  panic, and `checkedSort`, a sort that keeps it;
* `sliceUpTo`, `wrapInt64`, `goDiv64` — a slice expression `s[:hi]`,
  int64 wrap-around and truncating int64 division as Go defines them.
-/

namespace ShareOS.Go

/-- A Go `[]byte`, by its contents. -/
abbrev Bytes := List UInt8

/-- The error values of the modelled code. -/
inductive GoError where
  /-- `errUnexpected`. -/
  | errUnexpected
  /-- `reedsolomon.ErrTooFewShards`. -/
  | errTooFewShards
  /-- `reedsolomon.ErrShortData`. -/
  | errShortData
  /-- `io.EOF`. -/
  | eof
  /-- `io.ErrUnexpectedEOF`. -/
  | errUnexpectedEOF
  /-- `io.ErrShortWrite`. -/
  | errShortWrite
  /-- `errors.New(text)`. -/
  | errorsNew (text : String)
  /-- An error of a collaborator (a disk, a network peer) that the model
  does not name further. -/
  | other (code : Nat)
  /-- A Go runtime panic. -/
  | runtimePanic (what : String)
  deriving DecidableEq, Repr

/-! ## Writers -/

/-- An `io.Writer`. `write acc p` is its answer to `Write(p)` after it has
accepted `acc`: how many bytes of `p` it took, and its error. `write_le`
is the `io.Writer` contract `n ≤ len(p)` (`bytes.Reader.WriteTo` panics
on a writer that breaks it). -/
structure Writer where
  write : Bytes → Bytes → Nat × Option GoError
  write_le : ∀ acc p, (write acc p).1 ≤ p.length

/-- A writer that accepts every write in full, as a `hash.Hash` does. -/
def Writer.full : Writer where
  write _ p := (p.length, none)
  write_le _ _ := le_refl _

/-- One `Write(p)` checked the way its callers here check it: the
writer's error if it returned one, else `io.ErrShortWrite` when it took
fewer than `len(p)` bytes. Returns what the writer then holds, the count
`n` it reported, and the error. -/
def Writer.writeChecked (w : Writer) (acc p : Bytes) : Bytes × Nat × Option GoError :=
  let r := w.write acc p
  (acc ++ p.take r.1, r.1,
    match r.2 with
    | some e => some e
    | none => if r.1 = p.length then none else some .errShortWrite)

@[simp] theorem Writer.writeChecked_full (acc p : Bytes) :
    Writer.full.writeChecked acc p = (acc ++ p, p.length, none) := by
  simp [Writer.writeChecked, Writer.full]

/-- A checked write that reports no error took all of `p`: a writer's
failure or short count is never masked. -/
theorem Writer.writeChecked_ok {w : Writer} {acc p : Bytes}
    (h : (w.writeChecked acc p).2.2 = none) :
    w.writeChecked acc p = (acc ++ p, p.length, none) := by
  unfold Writer.writeChecked at h ⊢
  rcases hw : w.write acc p with ⟨m, _ | e⟩
  · rw [hw] at h
    by_cases hm : m = p.length
    · simp [hm]
    · simp [hm] at h
  · simp [hw] at h

/-- An error the writer returns from some `Write`. -/
def Writer.Returns (w : Writer) (e : GoError) : Prop :=
  ∃ acc p, (w.write acc p).2 = some e

/-- A checked write fails only with the writer's own error or with
`io.ErrShortWrite`. -/
theorem Writer.writeChecked_error {w : Writer} {acc p : Bytes} {e : GoError}
    (h : (w.writeChecked acc p).2.2 = some e) : w.Returns e ∨ e = .errShortWrite := by
  unfold Writer.writeChecked at h
  rcases hw : (w.write acc p).2 with _ | e'
  · simp only [hw] at h
    split_ifs at h
    cases h
    exact .inr rfl
  · simp only [hw, Option.some.injEq] at h
    exact .inl ⟨acc, p, h ▸ hw⟩

/-- `io.Copy(dst, bytes.NewReader(b))`: `bytes.Reader.WriteTo` returns
`0, nil` at once on an empty reader, and otherwise makes one `Write` of
all of `b`. -/
def ioCopy (dst : Writer) (acc b : Bytes) : Bytes × Nat × Option GoError :=
  if b = [] then (acc, 0, none) else dst.writeChecked acc b

@[simp] theorem ioCopy_full (acc b : Bytes) :
    ioCopy Writer.full acc b = (acc ++ b, b.length, none) := by
  by_cases h : b = [] <;> simp [ioCopy, h]

/-- A copy that reports no error handed the writer all of `b`. -/
theorem ioCopy_ok {dst : Writer} {acc b : Bytes} (h : (ioCopy dst acc b).2.2 = none) :
    ioCopy dst acc b = (acc ++ b, b.length, none) := by
  unfold ioCopy at h ⊢
  split_ifs at h ⊢ with hb
  · simp [hb]
  · exact Writer.writeChecked_ok h

/-- A copy either returns an error or does exactly what a copy to a
writer that accepts everything does. -/
theorem ioCopy_error_or_full (dst : Writer) (acc b : Bytes) :
    (∃ acc' n e, ioCopy dst acc b = (acc', n, some e)) ∨
      ioCopy dst acc b = ioCopy Writer.full acc b := by
  rcases hc : ioCopy dst acc b with ⟨acc', n, _ | e⟩
  · exact .inr (by rw [← hc, ioCopy_ok (by rw [hc]), ioCopy_full])
  · exact .inl ⟨_, _, _, rfl⟩

/-- Whatever the writer does, a copy hands it a prefix of `b`. -/
theorem ioCopy_prefix (dst : Writer) (acc b : Bytes) :
    ∃ u, (ioCopy dst acc b).1 = acc ++ u ∧ u <+: b := by
  unfold ioCopy Writer.writeChecked
  split_ifs
  · exact ⟨[], by simp⟩
  · exact ⟨_, rfl, List.take_prefix _ _⟩

/-- A copy fails only with the writer's own error or with
`io.ErrShortWrite`. -/
theorem ioCopy_error {dst : Writer} {acc b : Bytes} {e : GoError}
    (h : (ioCopy dst acc b).2.2 = some e) : dst.Returns e ∨ e = .errShortWrite := by
  by_cases hb : b = []
  · simp [ioCopy, hb] at h
  · rw [ioCopy, if_neg hb] at h
    exact Writer.writeChecked_error h

/-- A copy that fails made one `Write` of all of `b`, a non-empty `b`,
and failed with that write's error: the writer's own, or
`io.ErrShortWrite` when it took fewer bytes without one. -/
theorem ioCopy_error_write {dst : Writer} {acc b acc' : Bytes} {n : Nat} {e : GoError}
    (h : ioCopy dst acc b = (acc', n, some e)) :
    b ≠ [] ∧ acc' = acc ++ b.take (dst.write acc b).1 ∧
      ((dst.write acc b).2 = some e ∨
        ((dst.write acc b).2 = none ∧ (dst.write acc b).1 < b.length ∧ e = .errShortWrite)) := by
  by_cases hb : b = []
  · simp [ioCopy, hb] at h
  have hle := dst.write_le acc b
  rw [ioCopy, if_neg hb] at h
  rcases hw : dst.write acc b with ⟨m, _ | e'⟩ <;> rw [hw] at hle <;>
    simp only [Writer.writeChecked, hw, Prod.mk.injEq] at h
  · by_cases hm : m = b.length
    · simp [hm] at h
    · simp only [hm, if_false, Option.some.injEq] at h
      obtain ⟨rfl, -, rfl⟩ := h
      exact ⟨hb, rfl, .inr ⟨rfl, lt_of_le_of_ne hle hm, rfl⟩⟩
  · simp only [Option.some.injEq] at h
    obtain ⟨rfl, -, rfl⟩ := h
    exact ⟨hb, rfl, .inl rfl⟩

/-! ## `sort.Sort` -/

/-- What `sort.Sort(data)` promises, `sort` being the call with
`data.Less` as `less`. `Less` may panic and `sort.Sort` passes the panic
on, failing in no other way; on elements satisfying `P`, where `Less`
answers and is a strict weak order, the result is a permutation in which
no element comes before one it is `Less` than. -/
def SortContract {α : Type} (P : α → Prop) (less : α → α → Except GoError Bool)
    (sort : List α → Except GoError (List α)) : Prop :=
  ∀ l, (∀ e, sort l = .error e → ∃ a ∈ l, ∃ b ∈ l, less a b = .error e) ∧
    ((∀ a ∈ l, P a) → ∃ l', sort l = .ok l' ∧ l'.Perm l ∧
      l'.Pairwise fun a b => less b a ≠ .ok true)

/-- `xs.mapM f` in `Except` fails only with the error of one of the
elements. -/
theorem mapM_except_error {α β ε : Type} {f : α → Except ε β} {xs : List α} {e : ε}
    (h : xs.mapM f = .error e) : ∃ a ∈ xs, f a = .error e := by
  induction xs with
  | nil => cases h
  | cons a xs ih =>
    rw [List.mapM_cons] at h
    rcases ha : f a with e' | b <;> rw [ha] at h
    · cases h
      exact ⟨a, List.mem_cons_self a xs, ha⟩
    · rcases hs : xs.mapM f with e'' | bs <;> rw [hs] at h <;> cases h
      obtain ⟨a', ha', he⟩ := ih hs
      exact ⟨a', List.mem_cons_of_mem a ha', he⟩

/-- `xs.mapM f` in `Except` succeeds when `f` does on every element. -/
theorem mapM_except_ok {α β ε : Type} {f : α → Except ε β} {xs : List α}
    (h : ∀ a ∈ xs, ∃ b, f a = .ok b) : ∃ bs, xs.mapM f = .ok bs := by
  induction xs with
  | nil => exact ⟨[], rfl⟩
  | cons a xs ih =>
    obtain ⟨b, hb⟩ := h a (List.mem_cons_self a xs)
    obtain ⟨bs, hbs⟩ := ih fun a' ha' => h a' (List.mem_cons_of_mem a ha')
    exact ⟨b :: bs, by rw [List.mapM_cons, hb, hbs]; rfl⟩

/-- A sort that first asks `Less` about every pair of elements, passing
on the first panic, then orders them by `sortBy`. -/
def checkedSort {α : Type} (sortBy : List α → List α) (less : α → α → Except GoError Bool)
    (l : List α) : Except GoError (List α) :=
  (l.mapM fun a => l.mapM fun b => less a b).map fun _ => sortBy l

/-- `checkedSort` keeps the contract of a `Less` that answers on `P` and
that an order `le` of `sortBy` excludes in the other direction. -/
theorem checkedSort_sortContract {α : Type} (P : α → Prop) (less : α → α → Except GoError Bool)
    (sortBy : List α → List α) (le : α → α → Prop) (hperm : ∀ l, (sortBy l).Perm l)
    (hsorted : ∀ l, (sortBy l).Pairwise le) (hans : ∀ a b, P a → P b → ∃ v, less a b = .ok v)
    (hless : ∀ a b, P a → P b → le a b → less b a ≠ .ok true) :
    SortContract P less (checkedSort sortBy less) := by
  intro l
  constructor
  · intro e h
    unfold checkedSort at h
    rcases hm : l.mapM (fun a => l.mapM fun b => less a b) with e' | _ <;> rw [hm] at h
    · cases h
      obtain ⟨a, ha, hrow⟩ := mapM_except_error hm
      obtain ⟨b, hb, hab⟩ := mapM_except_error hrow
      exact ⟨a, ha, b, hb, hab⟩
    · cases h
  · intro hl
    obtain ⟨rows, hrows⟩ := mapM_except_ok (f := fun a => l.mapM fun b => less a b)
      fun a ha => mapM_except_ok fun b hb => hans a b (hl a ha) (hl b hb)
    have hmem : ∀ a ∈ sortBy l, P a := fun a ha => hl a ((hperm l).mem_iff.mp ha)
    refine ⟨sortBy l, by rw [checkedSort, hrows]; rfl, hperm l, (hsorted l).imp_of_mem
      fun ha hb hab => hless _ _ (hmem _ ha) (hmem _ hb) hab⟩

/-! ## Slices and int64 arithmetic -/

/-- The slice expression `xs[:hi]`. It panics outside `0 ≤ hi ≤ cap(xs)`;
the model does not track capacity, so it takes `cap = len`. -/
def sliceUpTo {α : Type} (xs : List α) (hi : Int) : Except GoError (List α) :=
  if 0 ≤ hi ∧ hi ≤ xs.length then .ok (xs.take hi.toNat)
  else .error (.runtimePanic "slice bounds out of range")

theorem sliceUpTo_of_le {α : Type} {xs : List α} {hi : Int} (h0 : 0 ≤ hi)
    (h : hi ≤ xs.length) : sliceUpTo xs hi = .ok (xs.take hi.toNat) := by
  simp [sliceUpTo, h0, h]

/-- Two's-complement wrap-around of an int64 result. -/
def wrapInt64 (x : Int) : Int := (x + 2 ^ 63) % 2 ^ 64 - 2 ^ 63

theorem wrapInt64_of_mem {x : Int} (h1 : -2 ^ 63 ≤ x) (h2 : x < 2 ^ 63) :
    wrapInt64 x = x := by
  unfold wrapInt64; omega

/-- Wrapping an intermediate result does not change the final wrapped
value of a subtraction. -/
theorem wrapInt64_wrap_sub (x y : Int) :
    wrapInt64 (wrapInt64 x - y) = wrapInt64 (x - y) := by
  unfold wrapInt64; omega

/-- int64 division `a / b`: it truncates toward zero, panics on a zero
divisor, and wraps (`MinInt64 / -1 = MinInt64`). -/
def goDiv64 (a b : Int) : Except GoError Int :=
  if b = 0 then .error (.runtimePanic "integer divide by zero")
  else .ok (wrapInt64 (a.tdiv b))

end ShareOS.Go
