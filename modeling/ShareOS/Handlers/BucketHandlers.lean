import ShareOS.Handlers.ObjectHandlers

/-!
# Handlers — bucket handlers

`ListBucketsHandler` and `PutBucketHandler`, over the same `ObjectLayer`
and helpers as the object handlers, and the response protocol across all
the handlers of `object-handlers.go` and `bucket-handlers.go`.

`HeadObjectHandler`, `PutObjectHandler`, `ListObjectPartsHandler` and
`PutBucketHandler` make exactly one response for every request
(`handlers_oneResponse`); GET does when it carries no range
(`getObjectHandler_oneResponse`). `ListBucketsHandler` has no check for a missing
object layer, so a call on the nil `ObjectLayer` interface panics, and
on a failed `ListBuckets` it returns without writing anything, which
`net/http` sends as an empty `200 OK`. `listBucketsHandler_oneResponse_iff`
says it makes one response exactly when `ListBuckets` succeeds.
-/

namespace ShareOS

open ShareOS.Go

section Handlers

variable {σ : Type} (c : Helpers)

/-- `ListBucketsHandler`. Calling `ListBuckets` on a nil `ObjectLayer`
interface is a nil dereference. -/
def listBucketsHandler (api : Option (ObjectLayer σ)) (s : σ) : Except GoError (List RespEvent) :=
  match api with
  | none => .error (.runtimePanic "invalid memory address or nil pointer dereference")
  | some objectAPI =>
    match objectAPI.listBuckets s with
    | .error _ => .ok []
    | .ok encodedSuccessResponse => .ok [.successResponseXML encodedSuccessResponse]

/-- `PutBucketHandler`: the store after the request, and the calls on
`w`. -/
def putBucketHandler (api : Option (ObjectLayer σ)) (s : σ) (r : Request) :
    σ × List RespEvent :=
  match api with
  | none => (s, [.errorResponse .errServerNotInitialized])
  | some objectAPI =>
    match objectAPI.makeBucket s r.bucket with
    | (s', some err) => (s', [.errorResponse (c.toAPIErrorCode err)])
    | (s', none) => (s', [.setHeader "Location" (c.getLocation r), .successResponseHeadersOnly])

/-- **Every other handler makes one response.** For every request,
every object layer and every store, the calls that `HeadObjectHandler`,
`PutObjectHandler`, `ListObjectPartsHandler` and `PutBucketHandler` make
on `w` form exactly one HTTP response. -/
theorem handlers_oneResponse (api : Option (ObjectLayer σ)) (s : σ) (r : Request) :
    OneResponse (headObjectHandler c api s r) ∧ OneResponse (putObjectHandler c api s r).2 ∧
      OneResponse listObjectPartsHandler ∧ OneResponse (putBucketHandler c api s r).2 := by
  have hset : ∀ k v, ∀ h ∈ [RespEvent.setHeader k v], h.phase = .headers := by
    simp [RespEvent.phase]
  refine ⟨?_, ?_, oneResponse_whole (.successResponseXML _) rfl, ?_⟩
  · unfold headObjectHandler
    rcases api with _ | objectAPI
    · exact oneResponse_of_body [] (.errorResponseHeadersOnly _) [] (by simp) rfl
    rcases hinfo : objectAPI.getObjectInfo s r.bucket r.object with err | objInfo <;>
      simp only [hinfo]
    · exact oneResponse_of_body [] (.errorResponseHeadersOnly _) [] (by simp) rfl
    · exact oneResponse_of_body [.objectHeaders objInfo none] (.writeHeader 200) []
        (by simp [RespEvent.phase]) rfl
  · rcases putObjectHandler_cases c api s r with
      ⟨_, _, h⟩ | ⟨_, _, _, _, h, ⟨_, rfl⟩ | ⟨_, rfl⟩⟩ <;> rw [h]
    · exact oneResponse_whole (.errorResponse _) rfl
    · exact oneResponse_whole (.errorResponse _) rfl
    · exact oneResponse_of_body _ .successResponseHeadersOnly [] (hset _ _) rfl
  · unfold putBucketHandler
    rcases api with _ | objectAPI
    · exact oneResponse_whole (.errorResponse _) rfl
    rcases hm : objectAPI.makeBucket s r.bucket with ⟨s', _ | err⟩ <;> simp only [hm]
    · exact oneResponse_of_body _ .successResponseHeadersOnly [] (hset _ _) rfl
    · exact oneResponse_whole (.errorResponse _) rfl

/-- **`ListBucketsHandler` answers only a successful listing.** It makes
exactly one response when there is an object layer and its `ListBuckets`
succeeds, and in no other case: it panics with no object layer and
writes nothing when `ListBuckets` fails. -/
theorem listBucketsHandler_oneResponse_iff (api : Option (ObjectLayer σ)) (s : σ) :
    (∃ es, listBucketsHandler api s = .ok es ∧ OneResponse es) ↔
      ∃ objectAPI body, api = some objectAPI ∧ objectAPI.listBuckets s = .ok body := by
  unfold listBucketsHandler
  rcases api with _ | objectAPI
  · simp
  rcases hl : objectAPI.listBuckets s with err | body
  · simp [hl, OneResponse, Phase.run]
  · simpa [hl] using oneResponse_whole (.successResponseXML body) rfl

end Handlers

end ShareOS
