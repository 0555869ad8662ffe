import ShareOS.Go.Runtime

/-!
# Stats — HTTP request statistics

`HTTPStats.updateStats` and `newHTTPStats` of `src/cmd/http-stats.go`:
per method, a total and a success record, each an `atomic.Uint64`
counter and a duration sum. Durations are exact rationals here.

The five arms of `updateStats` are copies of one another except that the
PUT and POST arms, on a 2xx response, add the duration to the total
record a second time where the others add it to the success record.
`countRequest` is the arm HEAD, GET and DELETE share and
`countRequestPutPost` the arm PUT and POST share; `HTTPStats.statsOf`
reads the pair a method's arm updates, and `statsOf_run` gives that pair
after any request log as a fold of the method's arm over its requests.
The closed forms then say what every run computes: counts and sums of
durations for HEAD, GET and DELETE (`statsOf_run_countRequest`), and for
PUT and POST a total duration that counts every success twice and a
success duration that stays `0` (`statsOf_run_countRequestPutPost`).

`ConnStats` closes the file: two wrapping byte totals, each the sum of
what was added to it modulo `2^64` after any interleaving of calls.
-/

namespace ShareOS

/-- HTTPMethodStats holds statistics information about a given HTTP
method made by all clients. -/
structure HTTPMethodStats where
  counter : UInt64
  duration : ℚ
  deriving DecidableEq

/-- `Counter.Inc()`: an `atomic.Uint64` wraps at `2^64`. -/
def HTTPMethodStats.inc (s : HTTPMethodStats) : HTTPMethodStats :=
  { s with counter := s.counter + 1 }

/-- `Duration.Add(durationSecs)`. -/
def HTTPMethodStats.add (s : HTTPMethodStats) (d : ℚ) : HTTPMethodStats :=
  { s with duration := s.duration + d }

/-- `Counter.Inc()` then `Duration.Add(durationSecs)`: one request
counted. -/
def HTTPMethodStats.record (s : HTTPMethodStats) (d : ℚ) : HTTPMethodStats :=
  (s.inc).add d

@[simp] theorem HTTPMethodStats.counter_toNat_inc (s : HTTPMethodStats) :
    s.inc.counter.toNat = (s.counter.toNat + 1) % 2 ^ 64 := by
  simp [HTTPMethodStats.inc, UInt64.toNat_add]

@[simp] theorem HTTPMethodStats.duration_inc (s : HTTPMethodStats) :
    s.inc.duration = s.duration := rfl

@[simp] theorem HTTPMethodStats.counter_add (s : HTTPMethodStats) (d : ℚ) :
    (s.add d).counter = s.counter := rfl

@[simp] theorem HTTPMethodStats.duration_add (s : HTTPMethodStats) (d : ℚ) :
    (s.add d).duration = s.duration + d := rfl

@[simp] theorem HTTPMethodStats.counter_toNat_record (s : HTTPMethodStats) (d : ℚ) :
    (s.record d).counter.toNat = (s.counter.toNat + 1) % 2 ^ 64 := by
  simp [HTTPMethodStats.record]

@[simp] theorem HTTPMethodStats.duration_record (s : HTTPMethodStats) (d : ℚ) :
    (s.record d).duration = s.duration + d := by
  simp [HTTPMethodStats.record]

/-- HTTPStats holds statistics information about HTTP requests made by
all clients. -/
structure HTTPStats where
  totalHEADs : HTTPMethodStats
  successHEADs : HTTPMethodStats
  totalGETs : HTTPMethodStats
  successGETs : HTTPMethodStats
  totalPUTs : HTTPMethodStats
  successPUTs : HTTPMethodStats
  totalPOSTs : HTTPMethodStats
  successPOSTs : HTTPMethodStats
  totalDELETEs : HTTPMethodStats
  successDELETEs : HTTPMethodStats
  deriving DecidableEq

/-- What `updateStats` reads of a request: `r.Method`,
`w.respStatusCode` and `durationSecs`. -/
structure HTTPRequest where
  method : String
  respStatusCode : Int
  durationSecs : ℚ

/-- A successful request has a 2xx response code. -/
def HTTPRequest.successReq (r : HTTPRequest) : Bool :=
  decide (200 ≤ r.respStatusCode ∧ r.respStatusCode < 300)

/-- The HEAD, GET and DELETE arms of `updateStats` on the method's
`(total, success)` pair. -/
def countRequest (p : HTTPMethodStats × HTTPMethodStats) (successReq : Bool) (d : ℚ) :
    HTTPMethodStats × HTTPMethodStats :=
  (p.1.record d, if successReq then p.2.record d else p.2)

/-- The PUT and POST arms: on success they increment the success counter
but add the duration to the total record again
(`st.totalPUTs.Duration.Add(durationSecs)`). -/
def countRequestPutPost (p : HTTPMethodStats × HTTPMethodStats) (successReq : Bool) (d : ℚ) :
    HTTPMethodStats × HTTPMethodStats :=
  if successReq then ((p.1.record d).add d, p.2.inc) else (p.1.record d, p.2)

/-- Update statistics from http request and response data. -/
def HTTPStats.updateStats (st : HTTPStats) (r : HTTPRequest) : HTTPStats :=
  match r.method with
  | "HEAD" =>
    let p := countRequest (st.totalHEADs, st.successHEADs) r.successReq r.durationSecs
    { st with totalHEADs := p.1, successHEADs := p.2 }
  | "GET" =>
    let p := countRequest (st.totalGETs, st.successGETs) r.successReq r.durationSecs
    { st with totalGETs := p.1, successGETs := p.2 }
  | "PUT" =>
    let p := countRequestPutPost (st.totalPUTs, st.successPUTs) r.successReq r.durationSecs
    { st with totalPUTs := p.1, successPUTs := p.2 }
  | "POST" =>
    let p := countRequestPutPost (st.totalPOSTs, st.successPOSTs) r.successReq r.durationSecs
    { st with totalPOSTs := p.1, successPOSTs := p.2 }
  | "DELETE" =>
    let p := countRequest (st.totalDELETEs, st.successDELETEs) r.successReq r.durationSecs
    { st with totalDELETEs := p.1, successDELETEs := p.2 }
  | _ => st

/-- Prepare new HTTPStats structure: every counter and duration zero. -/
def newHTTPStats : HTTPStats :=
  let z : HTTPMethodStats := ⟨0, 0⟩
  ⟨z, z, z, z, z, z, z, z, z, z⟩

/-! ## One method at a time -/

/-- The `(total, success)` pair of a method `updateStats` tracks. -/
def HTTPStats.statsOf (st : HTTPStats) : String → Option (HTTPMethodStats × HTTPMethodStats)
  | "HEAD" => some (st.totalHEADs, st.successHEADs)
  | "GET" => some (st.totalGETs, st.successGETs)
  | "PUT" => some (st.totalPUTs, st.successPUTs)
  | "POST" => some (st.totalPOSTs, st.successPOSTs)
  | "DELETE" => some (st.totalDELETEs, st.successDELETEs)
  | _ => none

/-- The arm of `updateStats` for a method. -/
def armOf (m : String) :
    HTTPMethodStats × HTTPMethodStats → Bool → ℚ → HTTPMethodStats × HTTPMethodStats :=
  if m = "PUT" ∨ m = "POST" then countRequestPutPost else countRequest

/-- **Step.** `updateStats` runs the arm of the request's method on that
method's pair and leaves every other pair as it was. -/
theorem statsOf_updateStats (st : HTTPStats) (r : HTTPRequest) (m : String) :
    (st.updateStats r).statsOf m =
      if r.method = m then (st.statsOf m).map fun p => armOf m p r.successReq r.durationSecs
      else st.statsOf m := by
  unfold HTTPStats.updateStats
  split <;> unfold HTTPStats.statsOf <;> split <;> simp_all [armOf]

/-- **Run.** After a request log, a method's pair is its arm folded over
the method's requests, from the pair it started with. -/
theorem statsOf_run (rs : List HTTPRequest) (st : HTTPStats) (m : String) :
    (rs.foldl HTTPStats.updateStats st).statsOf m =
      (st.statsOf m).map fun p =>
        (rs.filter (·.method = m)).foldl (fun p r => armOf m p r.successReq r.durationSecs) p := by
  induction rs generalizing st with
  | nil => simp
  | cons r rest ih =>
    rw [List.foldl_cons, ih, statsOf_updateStats]
    by_cases h : r.method = m
    · simp [h, List.filter_cons, Option.map_map, Function.comp_def]
    · simp [h, List.filter_cons]

/-! ## What the arms accumulate -/

/-- Counting a list of requests into one record: the counter counts them
modulo `2^64`, the duration sums theirs. -/
theorem foldl_record (rs : List HTTPRequest) (t : HTTPMethodStats) :
    (rs.foldl (fun t r => t.record r.durationSecs) t).counter.toNat =
        (t.counter.toNat + rs.length) % 2 ^ 64 ∧
      (rs.foldl (fun t r => t.record r.durationSecs) t).duration =
        t.duration + (rs.map (·.durationSecs)).sum := by
  induction rs generalizing t with
  | nil => simp [Nat.mod_eq_of_lt (UInt64.toNat_lt _)]
  | cons r rest ih =>
    obtain ⟨hc, hd⟩ := ih (t.record r.durationSecs)
    simp only [List.foldl_cons, hc, hd, HTTPMethodStats.counter_toNat_record,
      HTTPMethodStats.duration_record, List.length_cons, List.map_cons, List.sum_cons]
    exact ⟨by omega, by ring⟩

/-- The HEAD/GET/DELETE arm counts every request into the total record
and every success into the success record. -/
theorem foldl_countRequest (rs : List HTTPRequest) (p : HTTPMethodStats × HTTPMethodStats) :
    rs.foldl (fun p r => countRequest p r.successReq r.durationSecs) p =
      (rs.foldl (fun t r => t.record r.durationSecs) p.1,
        (rs.filter (·.successReq)).foldl (fun t r => t.record r.durationSecs) p.2) := by
  induction rs generalizing p with
  | nil => rfl
  | cons r rest ih =>
    rw [List.foldl_cons, ih, List.filter_cons]
    cases r.successReq <;> rfl

/-- One PUT/POST step, field by field. -/
theorem countRequestPutPost_fields (p : HTTPMethodStats × HTTPMethodStats) (ok : Bool) (d : ℚ) :
    let q := countRequestPutPost p ok d
    q.1.counter.toNat = (p.1.counter.toNat + 1) % 2 ^ 64 ∧
    q.1.duration = p.1.duration + d + (if ok then d else 0) ∧
    q.2.counter.toNat = (p.2.counter.toNat + if ok then 1 else 0) % 2 ^ 64 ∧
    q.2.duration = p.2.duration := by
  cases ok <;> simp [countRequestPutPost, Nat.mod_eq_of_lt (UInt64.toNat_lt _)]

/-- The PUT/POST arm: the total record counts every request and sums
every duration plus every success's duration again; the success record
counts the successes and its duration never moves. -/
theorem foldl_countRequestPutPost (rs : List HTTPRequest)
    (p : HTTPMethodStats × HTTPMethodStats) :
    let q := rs.foldl (fun p r => countRequestPutPost p r.successReq r.durationSecs) p
    q.1.counter.toNat = (p.1.counter.toNat + rs.length) % 2 ^ 64 ∧
    q.1.duration = p.1.duration + (rs.map (·.durationSecs)).sum +
      ((rs.filter (·.successReq)).map (·.durationSecs)).sum ∧
    q.2.counter.toNat = (p.2.counter.toNat + (rs.filter (·.successReq)).length) % 2 ^ 64 ∧
    q.2.duration = p.2.duration := by
  induction rs generalizing p with
  | nil => simp [Nat.mod_eq_of_lt (UInt64.toNat_lt _)]
  | cons r rest ih =>
    obtain ⟨h1, h2, h3, h4⟩ := ih (countRequestPutPost p r.successReq r.durationSecs)
    obtain ⟨c1, c2, c3, c4⟩ := countRequestPutPost_fields p r.successReq r.durationSecs
    simp only [List.foldl_cons, h1, h2, h3, h4, c1, c2, c3, c4, List.filter_cons]
    cases r.successReq <;> simp only [if_true, if_false, Bool.false_eq_true, List.length_cons,
      List.map_cons, List.sum_cons, and_true] <;> exact ⟨by omega, by ring, by omega⟩

/-! ## Every run from `newHTTPStats` -/

theorem statsOf_newHTTPStats {m : String}
    (hm : m = "HEAD" ∨ m = "GET" ∨ m = "PUT" ∨ m = "POST" ∨ m = "DELETE") :
    newHTTPStats.statsOf m = some (⟨0, 0⟩, ⟨0, 0⟩) := by
  rcases hm with rfl | rfl | rfl | rfl | rfl <;> rfl

/-- One successful PUT of one second: the success record's duration
stays `0`, the total record's is `2`. -/
theorem updateStats_PUT_ok :
    (newHTTPStats.updateStats ⟨"PUT", 200, 1⟩).successPUTs.duration = 0 ∧
      (newHTTPStats.updateStats ⟨"PUT", 200, 1⟩).totalPUTs.duration = 2 := by
  norm_num [HTTPStats.updateStats, newHTTPStats, countRequestPutPost, HTTPRequest.successReq]

/-! ## Connection statistics -/

/-- ConnStats - Network statistics: total input/output bytes transferred
during the server's life, as `atomic.Uint64` counters. -/
structure ConnStats where
  totalInputBytes : UInt64
  totalOutputBytes : UInt64

/-- `uint64(n)` of a Go `int`: two's complement, so a negative `n`
wraps. -/
def toUint64 (n : Int) : UInt64 := UInt64.ofNat (n % 2 ^ 64).toNat

/-- `total.Add(uint64(n))`, the body of both increments. -/
def addBytes (total : UInt64) (n : Int) : UInt64 := total + toUint64 n

/-- Increase total input bytes. -/
def ConnStats.incInputBytes (s : ConnStats) (n : Int) : ConnStats :=
  { s with totalInputBytes := addBytes s.totalInputBytes n }

/-- Increase total output bytes. -/
def ConnStats.incOutputBytes (s : ConnStats) (n : Int) : ConnStats :=
  { s with totalOutputBytes := addBytes s.totalOutputBytes n }

/-- Return total input bytes. -/
def ConnStats.getTotalInputBytes (s : ConnStats) : UInt64 := s.totalInputBytes

/-- Return total output bytes. -/
def ConnStats.getTotalOutputBytes (s : ConnStats) : UInt64 := s.totalOutputBytes

/-- Prepare new ConnStats structure. -/
def newConnStats : ConnStats := ⟨0, 0⟩

/-- One call on the connection statistics. -/
inductive ConnCall where
  | incInputBytes (n : Int)
  | incOutputBytes (n : Int)

/-- Run one call. -/
def ConnStats.call (s : ConnStats) : ConnCall → ConnStats
  | .incInputBytes n => s.incInputBytes n
  | .incOutputBytes n => s.incOutputBytes n

/-- The bytes a call adds to the input and to the output total. -/
def ConnCall.bytes : ConnCall → Int × Int
  | .incInputBytes n => (n, 0)
  | .incOutputBytes n => (0, n)

/-- An increment adds `n` modulo `2^64`, negative `n` included. -/
theorem addBytes_toNat (total : UInt64) (n : Int) :
    ((addBytes total n).toNat : Int) = (total.toNat + n) % 2 ^ 64 := by
  have ht : total.toNat < 2 ^ 64 := total.toNat_lt
  have hn : (toUint64 n).toNat = (n % 2 ^ 64).toNat :=
    UInt64.toNat_ofNat_of_lt (by simp [UInt64.size]; omega)
  simp only [addBytes, UInt64.toNat_add, UInt64.size, hn]
  omega

/-- One call, total by total: the call's own total moves, the other
stays. -/
theorem ConnStats.call_totals (s : ConnStats) (c : ConnCall) :
    ((s.call c).totalInputBytes.toNat : Int) = (s.totalInputBytes.toNat + c.bytes.1) % 2 ^ 64 ∧
      ((s.call c).totalOutputBytes.toNat : Int) =
        (s.totalOutputBytes.toNat + c.bytes.2) % 2 ^ 64 := by
  have hi : s.totalInputBytes.toNat < 2 ^ 64 := s.totalInputBytes.toNat_lt
  have ho : s.totalOutputBytes.toNat < 2 ^ 64 := s.totalOutputBytes.toNat_lt
  cases c <;> simp only [ConnStats.call, ConnStats.incInputBytes, ConnStats.incOutputBytes,
    ConnCall.bytes, addBytes_toNat, true_and, and_true] <;> omega

/-- After any interleaving of calls from `newConnStats`, each total is
the sum of what was added to it, modulo `2^64`. -/
theorem connStats_run (calls : List ConnCall) :
    ((calls.foldl ConnStats.call newConnStats).getTotalInputBytes.toNat : Int) =
        (calls.map (·.bytes.1)).sum % 2 ^ 64 ∧
      ((calls.foldl ConnStats.call newConnStats).getTotalOutputBytes.toNat : Int) =
        (calls.map (·.bytes.2)).sum % 2 ^ 64 := by
  induction calls using List.reverseRecOn with
  | nil => exact ⟨rfl, rfl⟩
  | append_singleton calls c ih =>
    obtain ⟨c1, c2⟩ := ConnStats.call_totals (calls.foldl ConnStats.call newConnStats) c
    simp only [ConnStats.getTotalInputBytes, ConnStats.getTotalOutputBytes, List.foldl_append,
      List.foldl_cons, List.foldl_nil, List.map_append, List.map_cons, List.map_nil,
      List.sum_append, List.sum_cons, List.sum_nil, add_zero] at ih ⊢
    rw [c1, c2, ih.1, ih.2]
    constructor <;> omega

end ShareOS
