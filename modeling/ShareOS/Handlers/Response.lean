import ShareOS.Go.Runtime

/-!
# Handlers — responses

What the S3 handlers of `object-handlers.go` and `bucket-handlers.go` do
to their `http.ResponseWriter`, as the list of calls they make on it
(`RespEvent`). The helpers that write an S3 response
(`writeErrorResponse`, `writeSuccessResponseXML`, …) and
`setObjectHeaders` are not under `src/`; each is one event, classified by
what `net/http` makes of it (`RespEvent.phase`): a header assignment,
which takes effect only while the status line has not gone out; a call
that sends the status line and the headers, after which only body bytes
may follow; or a call that sends a whole response. `setObjectHeaders`
is a header assignment without a range, and with one it also sends the
`206 Partial Content` status line: a ranged GET's status can come from
no other call the handler makes before its first `w.Write`.

`Phase.run` follows a response through the calls and stops at the first
one that comes too late: a header set after the status line went out
(`net/http` drops it), a second status line, or anything after a whole
response (an error XML appended to an object's bytes, say).
`OneResponse` is a run that ends with the status line sent: the calls
make exactly one HTTP response.

`setGetRespHeaders` copies the supported `response-*` query parameters
into headers. Go ranges over a map in an unspecified order;
`setGetRespHeaders_header` gives each resulting header in terms of
membership alone, so every order gives the same headers.
-/

namespace ShareOS

open ShareOS.Go

/-! ## Requests, codes and calls -/

/-- The `APIErrorCode`s the handlers name. -/
inductive APIErrorCode where
  | errServerNotInitialized
  | errNoSuchKey
  | errInvalidRange
  | errInvalidCopySource
  | errInvalidDigest
  | errMissingContentLength
  | errEntityTooLarge
  /-- A code `toAPIErrorCode` gives that the handlers do not name. -/
  | other (code : Nat)
  deriving DecidableEq, Repr

/-- `ObjectInfo`, of which the handlers read `Size` and `ETag`. -/
structure ObjectInfo where
  size : Int
  etag : String
  deriving DecidableEq, Repr

/-- A parsed `Range` header (`*httpRange`), of which `GetObjectHandler`
reads `offsetBegin` and `getLength()`. -/
structure HTTPRange where
  offsetBegin : Int
  length : Int
  deriving DecidableEq, Repr

/-- An `http.Header` or a `url.Values`: a `map[string][]string`, its
entries in the order `range` visits them. -/
abbrev Values := List (String × List String)

/-- `h.Get(key)`: the first value under `key`, or `""`. Keys are taken in
canonical form. -/
def Values.get (h : Values) (key : String) : String :=
  match h.lookup key with
  | some (v :: _) => v
  | _ => ""

/-- A request as the handlers read it. -/
structure Request where
  /-- `mux.Vars(r)["bucket"]`. -/
  bucket : String
  /-- `mux.Vars(r)["object"]`. -/
  object : String
  /-- `r.Header`. -/
  header : Values
  /-- `r.URL.Query()`. -/
  query : Values
  /-- `r.ContentLength`, `-1` when unknown. -/
  contentLength : Int
  /-- `r.Body`. -/
  body : Bytes

/-- A call a handler makes on its `http.ResponseWriter` `w`. -/
inductive RespEvent where
  /-- `writeErrorResponse(w, code, r.URL)`: status, headers and the error
  XML. -/
  | errorResponse (code : APIErrorCode)
  /-- `writeErrorResponseHeadersOnly(w, code)`: status and headers. -/
  | errorResponseHeadersOnly (code : APIErrorCode)
  /-- `writeSuccessResponseXML(w, body)`: `200 OK`, headers and `body`. -/
  | successResponseXML (body : Bytes)
  /-- `writeSuccessResponseHeadersOnly(w)`: `200 OK` and headers. -/
  | successResponseHeadersOnly
  /-- `w.WriteHeader(status)`. -/
  | writeHeader (status : Nat)
  /-- `w.Write(p)`: `200 OK` and the headers if not yet sent, then `p`. -/
  | write (p : Bytes)
  /-- `setObjectHeaders(w, objInfo, hrange)`: the object's headers and,
  for a range, `w.WriteHeader(http.StatusPartialContent)`. -/
  | objectHeaders (objInfo : ObjectInfo) (hrange : Option HTTPRange)
  /-- `setGetRespHeaders(w, reqParams)`. -/
  | getRespHeaders (reqParams : Values)
  /-- `w.Header().Set(key, value)`. -/
  | setHeader (key value : String)

/-! ## One response -/

/-- How far a response has gone: headers open; status line and headers
sent, body open; whole. -/
inductive Phase where
  | headers
  | body
  | whole
  deriving DecidableEq, Repr

/-- Where a call leaves a response whose headers are still open. -/
def RespEvent.phase : RespEvent → Phase
  | .objectHeaders _ none | .getRespHeaders _ | .setHeader .. => .headers
  | .objectHeaders _ (some _) | .errorResponseHeadersOnly _ | .successResponseHeadersOnly
  | .writeHeader _ | .write _ => .body
  | .errorResponse _ | .successResponseXML _ => .whole

/-- One call, or `none` if it comes too late. -/
def Phase.step : Phase → RespEvent → Option Phase
  | .headers, e => some e.phase
  | .body, .write _ => some .body
  | _, _ => none

/-- Follow a response through the calls. -/
def Phase.run (p : Phase) : List RespEvent → Option Phase
  | [] => some p
  | e :: es => (p.step e).bind (·.run es)

/-- **One response.** No call comes too late, and the status line went
out. -/
def OneResponse (es : List RespEvent) : Prop :=
  Phase.headers.run es = some .body ∨ Phase.headers.run es = some .whole

instance (es : List RespEvent) : Decidable (OneResponse es) :=
  inferInstanceAs (Decidable (_ ∨ _))

theorem Phase.run_append (p : Phase) (es es' : List RespEvent) :
    p.run (es ++ es') = (p.run es).bind (·.run es') := by
  induction es generalizing p with
  | nil => rfl
  | cons e es ih =>
    simp only [List.cons_append, Phase.run]
    cases p.step e <;> simp [ih]

@[simp] theorem Phase.run_writes (ps : List Bytes) :
    Phase.body.run (ps.map .write) = some .body := by
  induction ps with
  | nil => rfl
  | cons p ps ih => exact ih

/-- Headers set, then the status line with a body open, then body bytes. -/
theorem oneResponse_of_body (hs : List RespEvent) (e : RespEvent) (ps : List Bytes)
    (hh : ∀ h ∈ hs, h.phase = .headers) (he : e.phase = .body) :
    OneResponse (hs ++ e :: ps.map .write) := by
  have hrun : ∀ hs : List RespEvent, (∀ h ∈ hs, h.phase = .headers) →
      Phase.headers.run hs = some .headers := by
    intro hs hh
    induction hs with
    | nil => rfl
    | cons h hs ih =>
      simp only [Phase.run, Phase.step, hh h (List.mem_cons_self _ _), Option.some_bind]
      exact ih fun h' hm => hh h' (List.mem_cons_of_mem _ hm)
  left
  simp [Phase.run_append, hrun hs hh, Phase.run, Phase.step, he]

/-- The object's headers and the requested ones, then body bytes: one
response exactly when there is no range, since with one the status line
goes out before the requested headers are set. -/
theorem oneResponse_objectHeaders_iff (objInfo : ObjectInfo) (hrange : Option HTTPRange)
    (reqParams : Values) (p : Bytes) (ps : List Bytes) :
    OneResponse ([.objectHeaders objInfo hrange, .getRespHeaders reqParams] ++
      .write p :: ps.map .write) ↔ hrange = none := by
  cases hrange <;> simp [OneResponse, Phase.run, Phase.step, RespEvent.phase]

/-- A lone call that sends a whole response. -/
theorem oneResponse_whole (e : RespEvent) (he : e.phase = .whole) : OneResponse [e] := by
  simp [OneResponse, Phase.run, Phase.step, he]

/-! ## `setGetRespHeaders` -/

/-- `supportedGetReqParams`: the query parameters a GET may use to set a
response header, and the header each one sets. -/
def supportedGetReqParams : List (String × String) :=
  [("response-expires", "Expires"),
   ("response-content-type", "Content-Type"),
   ("response-cache-control", "Cache-Control"),
   ("response-content-encoding", "Content-Encoding"),
   ("response-content-language", "Content-Language"),
   ("response-content-disposition", "Content-Disposition")]

/-- A response's header map `w.Header()`, by key. -/
abbrev Header := String → Option (List String)

/-- `setGetRespHeaders(w, reqParams)`: for each query parameter, in the
order `range` visits them, `w.Header()[header] = v` when the parameter is
supported. -/
def setGetRespHeaders (hdr : Header) (reqParams : Values) : Header :=
  reqParams.foldl (fun hdr kv =>
    match supportedGetReqParams.lookup kv.1 with
    | some header => Function.update hdr header (some kv.2)
    | none => hdr) hdr

/-- No two supported parameters set the same header. -/
theorem supportedGetReqParams_inj {k k' h : String}
    (hk : supportedGetReqParams.lookup k = some h)
    (hk' : supportedGetReqParams.lookup k' = some h) : k = k' := by
  have hmem {k h : String} (hk : supportedGetReqParams.lookup k = some h) :
      (k, h) ∈ supportedGetReqParams := by
    obtain ⟨l₁, l₂, hl, -⟩ := List.lookup_eq_some_iff.mp hk
    rw [hl]; simp
  have hnodup : (supportedGetReqParams.map Prod.snd).Nodup := by decide
  exact congrArg Prod.fst (List.inj_on_of_nodup_map hnodup (hmem hk) (hmem hk') rfl)

section SetGetRespHeaders

variable (hdr : Header) (h : String)

/-- A header no parameter maps to keeps its value. -/
theorem setGetRespHeaders_other (reqParams : Values)
    (hno : ∀ k v, (k, v) ∈ reqParams → supportedGetReqParams.lookup k ≠ some h) :
    setGetRespHeaders hdr reqParams h = hdr h := by
  induction reqParams generalizing hdr with
  | nil => rfl
  | cons kv rest ih =>
    rw [setGetRespHeaders, List.foldl_cons, ← setGetRespHeaders,
      ih _ fun k v hm => hno k v (List.mem_cons_of_mem _ hm)]
    have hkv := hno kv.1 kv.2 (List.mem_cons_self _ _)
    rcases hl : supportedGetReqParams.lookup kv.1 with _ | header
    · rfl
    · exact Function.update_noteq (fun he => hkv (by rw [hl, he])) _ _

/-- **Requested headers, in any order.** With a parameter `k` that maps
to header `h`, `h` holds `k`'s values; a header no parameter maps to
keeps its value. The keys of `reqParams` are distinct (it is a map), and
only membership in `reqParams` is used: every order `range` may visit
the map in gives the same headers. -/
theorem setGetRespHeaders_header {reqParams : Values} (hkeys : (reqParams.map Prod.fst).Nodup) :
    (∀ k v, (k, v) ∈ reqParams → supportedGetReqParams.lookup k = some h →
      setGetRespHeaders hdr reqParams h = some v) ∧
    ((∀ k v, (k, v) ∈ reqParams → supportedGetReqParams.lookup k ≠ some h) →
      setGetRespHeaders hdr reqParams h = hdr h) := by
  refine ⟨fun k v hm hk => ?_, setGetRespHeaders_other hdr h reqParams⟩
  induction reqParams generalizing hdr with
  | nil => cases hm
  | cons kv rest ih =>
    rw [List.map_cons, List.nodup_cons] at hkeys
    rw [setGetRespHeaders, List.foldl_cons, ← setGetRespHeaders]
    rcases List.mem_cons.mp hm with rfl | hm
    · -- the last write to `h` is this one: no later parameter maps to `h`
      rw [setGetRespHeaders_other]
      · simp only [hk, Function.update_same]
      · intro k' v' hm' hk'
        exact hkeys.1 (by
          rw [supportedGetReqParams_inj hk hk']; exact List.mem_map.mpr ⟨_, hm', rfl⟩)
    · exact ih _ hkeys.2 hm

end SetGetRespHeaders

/-- A supported and an unsupported parameter, `Content-Type` asked
about. -/
theorem setGetRespHeaders_header_content_type :
    (∀ k v, (k, v) ∈ [("response-content-type", ["text/plain"]), ("versionId", ["1"])] →
      supportedGetReqParams.lookup k = some "Content-Type" →
      setGetRespHeaders (fun _ => none)
        [("response-content-type", ["text/plain"]), ("versionId", ["1"])] "Content-Type" =
          some v) ∧
    ((∀ k v, (k, v) ∈ [("response-content-type", ["text/plain"]), ("versionId", ["1"])] →
      supportedGetReqParams.lookup k ≠ some "Content-Type") →
      setGetRespHeaders (fun _ => none)
        [("response-content-type", ["text/plain"]), ("versionId", ["1"])] "Content-Type" =
          none) :=
  setGetRespHeaders_header (fun _ => none) "Content-Type" (by decide)

/-- Two parameters, one unsupported: only `Content-Type` is set. -/
example : setGetRespHeaders (fun _ => none)
    [("response-content-type", ["text/plain"]), ("versionId", ["1"])] "Content-Type" =
      some ["text/plain"] := by decide

end ShareOS
