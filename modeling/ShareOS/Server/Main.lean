import ShareOS.Handlers.BucketHandlers

/-!
# Server — the object layer `serverMain` installs

`serverMain` builds the object layer with `newObjectLayer` and stores it
in `globalObjectAPI`, which every handler reads through
`newObjectLayerFn` (`api.ObjectAPI()`). With one endpoint
`newObjectLayer` builds a filesystem layer (`newFSObjectLayer`, not under
`src/`); with any other number of endpoints the code that built an
erasure-coded layer is gone, and it returns no layer and no error.

`serverMain_no_objectLayer` follows that through the handlers of
`ShareOS.Handlers`: for a setup of several disks the server refuses every
object and bucket request with `ErrServerNotInitialized`, the store
untouched, and `ListBucketsHandler` panics.
-/

namespace ShareOS

open ShareOS.Go

section Server

variable {σ : Type}

/-- `newObjectLayer(endpoints)`, an endpoint by its `Path`. -/
def newObjectLayer (newFSObjectLayer : String → Option (ObjectLayer σ) × Option GoError)
    (endpoints : List String) : Option (ObjectLayer σ) × Option GoError :=
  match endpoints with
  | [path] => newFSObjectLayer path
  | _ => (none, none)

/-- `globalObjectAPI` after `serverMain`, as `newObjectLayerFn` returns
it: the layer `newObjectLayer` returned, its error only printed. -/
def serverObjectAPI (newFSObjectLayer : String → Option (ObjectLayer σ) × Option GoError)
    (endpoints : List String) : Option (ObjectLayer σ) :=
  (newObjectLayer newFSObjectLayer endpoints).1

/-- **A setup of several disks serves nothing.** With any number of
endpoints but one, `newObjectLayer` reports success with no layer, so
every GET, HEAD, PUT and bucket creation is refused with
`ErrServerNotInitialized`, the store as it was, and `ListBucketsHandler`
panics on the nil layer. -/
theorem serverMain_no_objectLayer
    (newFSObjectLayer : String → Option (ObjectLayer σ) × Option GoError) (endpoints : List String)
    (hlen : endpoints.length ≠ 1) :
    newObjectLayer newFSObjectLayer endpoints = (none, none) ∧
      ∀ (c : Helpers) (s : σ) (w : Writer) (r : Request),
        getObjectHandler c (serverObjectAPI newFSObjectLayer endpoints) s w r =
            [.errorResponse .errServerNotInitialized] ∧
          headObjectHandler c (serverObjectAPI newFSObjectLayer endpoints) s r =
            [.errorResponseHeadersOnly .errServerNotInitialized] ∧
          putObjectHandler c (serverObjectAPI newFSObjectLayer endpoints) s r =
            (s, [.errorResponse .errServerNotInitialized]) ∧
          putBucketHandler c (serverObjectAPI newFSObjectLayer endpoints) s r =
            (s, [.errorResponse .errServerNotInitialized]) ∧
          listBucketsHandler (serverObjectAPI newFSObjectLayer endpoints) s =
            .error (.runtimePanic "invalid memory address or nil pointer dereference") := by
  have hnone : newObjectLayer newFSObjectLayer endpoints = (none, none) := by
    rcases endpoints with _ | ⟨path, _ | ⟨path', rest⟩⟩
    · rfl
    · exact absurd rfl hlen
    · rfl
  refine ⟨hnone, fun c s w r => ?_⟩
  simp only [serverObjectAPI, hnone]
  exact ⟨rfl, rfl, rfl, rfl, rfl⟩

end Server

end ShareOS
