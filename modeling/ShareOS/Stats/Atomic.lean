import ShareOS.Stats.HTTPStats

/-!
# Stats — the atomic operations of `updateStats`

Each `Counter` and each `Duration` of an `HTTPMethodStats` is its own
atomic (`atomic.Uint64`, `atomic.Float64`), so one `updateStats` call is
not one step: it is two or four atomic operations on named fields
(`updateStatsOps`), and the operations of concurrent calls on the shared
`globalHTTPStats` may land in any interleaving.

`updateStats_eq_foldl_ops` ties this level to the call level of
`ShareOS.Stats.HTTPStats`: a call's operations, run in program order,
are the call. Any two operations commute (`HTTPStats.apply_comm`): on
different fields they touch disjoint state, on one field both are
additions. So in whatever order the operations of a set of calls land,
the statistics are those of running the calls one after another
(`foldl_apply_interleaving`): no update is lost and none is counted
twice, and the closed forms of `statsOf_run_countRequest` and
`statsOf_run_countRequestPutPost` hold of every interleaving. Durations
are exact rationals here; with IEEE addition the order of two
`Duration.Add`s can change the rounding of the sum.
-/

namespace ShareOS

/-- The ten `HTTPMethodStats` fields of `HTTPStats`. -/
inductive StatField where
  | totalHEADs | successHEADs
  | totalGETs | successGETs
  | totalPUTs | successPUTs
  | totalPOSTs | successPOSTs
  | totalDELETEs | successDELETEs
  deriving DecidableEq

/-- The field `st.<field>`. -/
def HTTPStats.field (st : HTTPStats) : StatField → HTTPMethodStats
  | .totalHEADs => st.totalHEADs
  | .successHEADs => st.successHEADs
  | .totalGETs => st.totalGETs
  | .successGETs => st.successGETs
  | .totalPUTs => st.totalPUTs
  | .successPUTs => st.successPUTs
  | .totalPOSTs => st.totalPOSTs
  | .successPOSTs => st.successPOSTs
  | .totalDELETEs => st.totalDELETEs
  | .successDELETEs => st.successDELETEs

/-- The statistics with one field replaced. -/
def HTTPStats.setField (st : HTTPStats) : StatField → HTTPMethodStats → HTTPStats
  | .totalHEADs, m => { st with totalHEADs := m }
  | .successHEADs, m => { st with successHEADs := m }
  | .totalGETs, m => { st with totalGETs := m }
  | .successGETs, m => { st with successGETs := m }
  | .totalPUTs, m => { st with totalPUTs := m }
  | .successPUTs, m => { st with successPUTs := m }
  | .totalPOSTs, m => { st with totalPOSTs := m }
  | .successPOSTs, m => { st with successPOSTs := m }
  | .totalDELETEs, m => { st with totalDELETEs := m }
  | .successDELETEs, m => { st with successDELETEs := m }

@[simp] theorem HTTPStats.field_setField (st : HTTPStats) (f g : StatField)
    (m : HTTPMethodStats) :
    (st.setField f m).field g = if g = f then m else st.field g := by
  cases f <;> cases g <;> rfl

/-- Statistics that agree on every field are equal. -/
theorem HTTPStats.ext_field {st st' : HTTPStats} (h : ∀ f, st.field f = st'.field f) :
    st = st' := by
  cases st; cases st'
  exact HTTPStats.mk.injEq .. ▸ ⟨h .totalHEADs, h .successHEADs, h .totalGETs, h .successGETs,
    h .totalPUTs, h .successPUTs, h .totalPOSTs, h .successPOSTs, h .totalDELETEs,
    h .successDELETEs⟩

/-! ## Operations -/

/-- One atomic operation of `updateStats`. -/
inductive StatOp where
  /-- The field's `Counter.Inc()`. -/
  | inc (f : StatField)
  /-- The field's `Duration.Add(d)`. -/
  | add (f : StatField) (d : ℚ)

/-- The field an operation touches. -/
def StatOp.field : StatOp → StatField
  | .inc f => f
  | .add f _ => f

/-- What an operation does to its field. -/
def StatOp.run : StatOp → HTTPMethodStats → HTTPMethodStats
  | .inc _, s => s.inc
  | .add _ d, s => s.add d

/-- Run one atomic operation. -/
def HTTPStats.apply (st : HTTPStats) (op : StatOp) : HTTPStats :=
  st.setField op.field (op.run (st.field op.field))

/-- The HEAD, GET and DELETE arms, in program order. -/
def countRequestOps (total success : StatField) (successReq : Bool) (d : ℚ) : List StatOp :=
  [.inc total, .add total d] ++ if successReq then [.inc success, .add success d] else []

/-- The PUT and POST arms: on success the duration goes to `total`
again. -/
def countRequestPutPostOps (total success : StatField) (successReq : Bool) (d : ℚ) :
    List StatOp :=
  [.inc total, .add total d] ++ if successReq then [.inc success, .add total d] else []

/-- The atomic operations of one `updateStats` call, in program order. -/
def updateStatsOps (r : HTTPRequest) : List StatOp :=
  match r.method with
  | "HEAD" => countRequestOps .totalHEADs .successHEADs r.successReq r.durationSecs
  | "GET" => countRequestOps .totalGETs .successGETs r.successReq r.durationSecs
  | "PUT" => countRequestPutPostOps .totalPUTs .successPUTs r.successReq r.durationSecs
  | "POST" => countRequestPutPostOps .totalPOSTs .successPOSTs r.successReq r.durationSecs
  | "DELETE" => countRequestOps .totalDELETEs .successDELETEs r.successReq r.durationSecs
  | _ => []

/-! ## Program order: the operations are the call -/

/-- The HEAD/GET/DELETE operations on two distinct fields run
`countRequest` on them. -/
theorem foldl_countRequestOps (st : HTTPStats) {total success : StatField}
    (h : success ≠ total) (ok : Bool) (d : ℚ) :
    (countRequestOps total success ok d).foldl HTTPStats.apply st =
      let p := countRequest (st.field total, st.field success) ok d
      (st.setField total p.1).setField success p.2 := by
  refine HTTPStats.ext_field fun g => ?_
  by_cases h1 : g = total
  · subst h1
    cases ok <;> simp [countRequestOps, countRequest, HTTPStats.apply, StatOp.field,
      StatOp.run, HTTPMethodStats.record, Ne.symm h]
  · by_cases h2 : g = success
    · subst h2
      cases ok <;> simp [countRequestOps, countRequest, HTTPStats.apply, StatOp.field,
        StatOp.run, HTTPMethodStats.record, h]
    · cases ok <;> simp [countRequestOps, countRequest, HTTPStats.apply, StatOp.field,
        StatOp.run, h1, h2]

/-- The PUT/POST operations on two distinct fields run
`countRequestPutPost` on them. -/
theorem foldl_countRequestPutPostOps (st : HTTPStats) {total success : StatField}
    (h : success ≠ total) (ok : Bool) (d : ℚ) :
    (countRequestPutPostOps total success ok d).foldl HTTPStats.apply st =
      let p := countRequestPutPost (st.field total, st.field success) ok d
      (st.setField total p.1).setField success p.2 := by
  refine HTTPStats.ext_field fun g => ?_
  by_cases h1 : g = total
  · subst h1
    cases ok <;> simp [countRequestPutPostOps, countRequestPutPost, HTTPStats.apply,
      StatOp.field, StatOp.run, HTTPMethodStats.record, Ne.symm h]
  · by_cases h2 : g = success
    · subst h2
      cases ok <;> simp [countRequestPutPostOps, countRequestPutPost, HTTPStats.apply,
        StatOp.field, StatOp.run, HTTPMethodStats.record, h]
    · cases ok <;> simp [countRequestPutPostOps, countRequestPutPost, HTTPStats.apply,
        StatOp.field, StatOp.run, h1, h2]

/-- **Refinement.** One `updateStats` call is its atomic operations run
in program order. -/
theorem updateStats_eq_foldl_ops (st : HTTPStats) (r : HTTPRequest) :
    st.updateStats r = (updateStatsOps r).foldl HTTPStats.apply st := by
  obtain ⟨m, code, d⟩ := r
  by_cases hHEAD : m = "HEAD"
  · subst hHEAD
    exact (foldl_countRequestOps st (by decide : StatField.successHEADs ≠ .totalHEADs) _ _).symm
  by_cases hGET : m = "GET"
  · subst hGET
    exact (foldl_countRequestOps st (by decide : StatField.successGETs ≠ .totalGETs) _ _).symm
  by_cases hPUT : m = "PUT"
  · subst hPUT
    exact (foldl_countRequestPutPostOps st
      (by decide : StatField.successPUTs ≠ .totalPUTs) _ _).symm
  by_cases hPOST : m = "POST"
  · subst hPOST
    exact (foldl_countRequestPutPostOps st
      (by decide : StatField.successPOSTs ≠ .totalPOSTs) _ _).symm
  by_cases hDELETE : m = "DELETE"
  · subst hDELETE
    exact (foldl_countRequestOps st
      (by decide : StatField.successDELETEs ≠ .totalDELETEs) _ _).symm
  -- any other method: neither level touches the statistics
  have hops : updateStatsOps ⟨m, code, d⟩ = [] := by
    unfold updateStatsOps; split <;> first | rfl | contradiction
  have hcall : st.updateStats ⟨m, code, d⟩ = st := by
    unfold HTTPStats.updateStats; split <;> first | rfl | contradiction
  rw [hops, hcall, List.foldl_nil]

/-! ## Any interleaving -/

/-- Two operations on one field commute: both are additions. -/
theorem StatOp.run_comm (a b : StatOp) (s : HTTPMethodStats) :
    a.run (b.run s) = b.run (a.run s) := by
  cases a <;> cases b <;> simp only [StatOp.run, HTTPMethodStats.inc, HTTPMethodStats.add,
    add_right_comm]

/-- Any two atomic operations commute. -/
theorem HTTPStats.apply_comm (st : HTTPStats) (a b : StatOp) :
    (st.apply a).apply b = (st.apply b).apply a := by
  refine HTTPStats.ext_field fun g => ?_
  simp only [HTTPStats.apply, HTTPStats.field_setField]
  by_cases ha : g = a.field <;> by_cases hb : g = b.field
  · subst ha; simp [← hb, StatOp.run_comm]
  · simp [ha, hb, (ha ▸ hb : a.field ≠ b.field)]
  · simp [ha, hb, (hb ▸ ha : b.field ≠ a.field)]
  · simp [ha, hb]

/-- **No lost update.** Concurrent `updateStats` calls for the requests
`rs`: in whatever order their atomic operations land (every interleaving
of the calls' program orders is such an order), the statistics are those
of running the calls one after another. -/
theorem foldl_apply_interleaving (st : HTTPStats) (rs : List HTTPRequest) {ops : List StatOp}
    (h : ops.Perm (rs.map updateStatsOps).flatten) :
    ops.foldl HTTPStats.apply st = rs.foldl HTTPStats.updateStats st := by
  rw [h.foldl_eq' (fun a _ b _ s => HTTPStats.apply_comm s a b), List.foldl_flatten,
    List.foldl_map]
  congr
  funext s r
  exact (updateStats_eq_foldl_ops s r).symm

/-- A GET and a failed PUT whose operations land in the opposite order. -/
theorem foldl_apply_interleaving_swapped :
    (updateStatsOps ⟨"PUT", 500, 2⟩ ++ updateStatsOps ⟨"GET", 200, 1⟩).foldl HTTPStats.apply
        newHTTPStats =
      [⟨"GET", 200, 1⟩, ⟨"PUT", 500, 2⟩].foldl HTTPStats.updateStats newHTTPStats :=
  foldl_apply_interleaving newHTTPStats _ (by simpa using List.perm_append_comm)

end ShareOS
