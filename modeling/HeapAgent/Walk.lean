import HeapAgent.Jni

/-! The other exported operations: the full walk, the filtered walk over a list
of class names, the resolver and the epoch advance. The filtered walk does not
clear tags; it advances the epoch and resets the counter once per resolved
class and gathers the references of every class into one growing buffer. -/

namespace HeapAgent

/-- How the runtime answers one call of `nativeWalkHeap`; `true` is success. -/
structure WalkAnswers where
  clear : Bool
  tagging : Bool
  grows : Nat → Bool
  lookup : Bool
  objectArray : Bool

/-- How the runtime answers the calls made for one class of the filtered walk. -/
structure ClassAnswers where
  chars : Bool
  tagging : Bool
  grows : Nat → Bool
  lookup : Bool
  collect : Bool

/-- How the runtime answers one call of `nativeWalkHeapFiltered`. -/
structure FilteredAnswers where
  perClass : Nat → ClassAnswers
  objectArray : Bool

/-- The answers of a call in which every runtime call succeeds. -/
@[simps] def WalkAnswers.succeeding : WalkAnswers := ⟨true, true, fun _ => true, true, true⟩

/-- The answers of a class's turn in which every runtime call succeeds. -/
@[simps] def ClassAnswers.succeeding : ClassAnswers := ⟨true, true, fun _ => true, true, true⟩

/-- The answers of a call in which every runtime call succeeds. -/
@[simps] def FilteredAnswers.succeeding : FilteredAnswers := ⟨fun _ => .succeeding, true⟩

namespace Jni

/-- `SetObjectArrayElement(result, i, o); DeleteLocalRef(o);` over the references. -/
def deleteRefs : List (Handle × Obj) → StateM Jni Unit
  | [] => pure ()
  | ref :: rest => do deleteLocalRef ref.1; deleteRefs rest

/-- `nativeWalkHeap` from `FindClass(env, "java/lang/Object")` on. -/
def walkTail (jvm : Jvm) (answers : WalkAnswers) (colTags : Option Handle) (lookup : Lookup) :
    StateM Jni (Option (List Obj)) := do
  let some _ ← findClass jvm "java/lang/Object" |
    deallocate lookup.objects
    deallocate lookup.tagsOut
    free colTags
    return none
  let some _ ← newLocalRef answers.objectArray |
    deallocate lookup.objects
    deallocate lookup.tagsOut
    free colTags
    return none
  deleteRefs lookup.found
  deallocate lookup.objects
  deallocate lookup.tagsOut
  free colTags
  return some (lookup.found.map Prod.snd)

/-- `nativeWalkHeapFiltered` after its class loop, with `collectedCount`
references gathered in `collected`. -/
def filteredTail (jvm : Jvm) (answers : FilteredAnswers) (collected : Option Handle)
    (refs : List (Handle × Obj)) : StateM Jni (Option (List Obj)) := do
  if refs.length = 0 then
    free collected
    return none
  let some _ ← findClass jvm "java/lang/Object" |
    deleteRefs refs
    free collected
    return none
  let some _ ← newLocalRef answers.objectArray |
    deleteRefs refs
    free collected
    return none
  deleteRefs refs
  free collected
  return some (refs.map Prod.snd)

/-- The growth rule of `collected`. -/
def grownCapacity (collectedCap found : Nat) : Nat :=
  if collectedCap = 0 then found + 64 else collectedCap * 2 + found

/-- The end of one class's turn of the filtered walk once the lookup answered:
append the references to `collected`, growing it when they do not fit, then
free the turn's arrays. `none` is the failed growth, after which the call
returns `NULL`. -/
def collectClass (ok : Bool) (targetClass : Handle) (colTags : Option Handle) (lookup : Lookup)
    (collected : Option Handle) (refs : List (Handle × Obj)) (collectedCap : Nat) :
    StateM Jni (Option (Option Handle × List (Handle × Obj) × Nat)) := do
  let found := lookup.found
  let grown ← if found.length > 0 ∧ refs.length + found.length > collectedCap then
      (·.map fun block => (some block, grownCapacity collectedCap found.length)) <$> realloc ok collected
    else pure (some (collected, collectedCap))
  let some (collected, collectedCap) := grown |
    deleteRefs found
    deallocate lookup.objects
    deallocate lookup.tagsOut
    free colTags
    free collected
    deleteLocalRef targetClass
    return none
  deallocate lookup.objects
  deallocate lookup.tagsOut
  free colTags
  deleteLocalRef targetClass
  return some (collected, refs ++ found, collectedCap)

end Jni

/-- `nativeWalkHeap()`. -/
def nativeWalkHeap (jvm : Jvm) (answers : WalkAnswers) : StateM Native (Option (List Obj)) := do
  clearAllTags answers.clear
  resetLocalCounter
  let (col, colTags) ← tagObjects none answers.grows answers.tagging
  let heap ← heapNow
  liftJni do
    if col.count = 0 then
      Jni.free colTags
      return none
    let some lookup ← Jni.getObjectsWithTags jvm heap answers.lookup col.tags true |
      Jni.checkPrint
      Jni.free colTags
      return none
    Jni.walkTail jvm answers colTags lookup

/-- One turn of the class loop of `nativeWalkHeapFiltered`, for the array element
`element`, carrying `collected`, the references in it and `collectedCap`:
`some` with what the next turn starts from, or `none` for the `return NULL`
after a failed growth. -/
def filteredTurn (jvm : Jvm) (here : ClassAnswers) (element : Option String) (collected : Option Handle)
    (refs : List (Handle × Obj)) (collectedCap : Nat) :
    StateM Native (Option (Option Handle × List (Handle × Obj) × Nat)) := do
  let some name := element | return some (collected, refs, collectedCap)
  let jName ← liftJni (Jni.acquire .localRef)
  let some cname ← liftJni (Jni.getStringUTFChars here.chars) |
    liftJni (Jni.deleteLocalRef jName)
    return some (collected, refs, collectedCap)
  let targetClass ← liftJni (Jni.findClass jvm name)
  liftJni (Jni.releaseStringUTFChars cname)
  liftJni (Jni.deleteLocalRef jName)
  let some (targetRef, cls) := targetClass |
    liftJni do if ← Jni.exceptionCheck then Jni.exceptionClear
    return some (collected, refs, collectedCap)
  bumpEpoch
  resetLocalCounter
  let (col, colTags) ← tagObjects (some cls) here.grows here.tagging
  let heap ← heapNow
  liftJni do
    if !here.tagging ∨ col.count = 0 then
      Jni.free colTags
      Jni.deleteLocalRef targetRef
      return some (collected, refs, collectedCap)
    let some lookup ← Jni.getObjectsWithTags jvm heap here.lookup col.tags true |
      Jni.checkPrint
      Jni.free colTags
      Jni.deleteLocalRef targetRef
      return some (collected, refs, collectedCap)
    Jni.collectClass here.collect targetRef colTags lookup collected refs collectedCap

/-- The class loop of `nativeWalkHeapFiltered` from index `ci` on: `collected`,
the references in it and `collectedCap` after the loop, or `none` for the
`return NULL` after a failed growth. -/
def filteredLoop (jvm : Jvm) (answers : FilteredAnswers) :
    Nat → List (Option String) → Option Handle → List (Handle × Obj) → Nat →
      StateM Native (Option (Option Handle × List (Handle × Obj) × Nat))
  | _, [], collected, refs, collectedCap => pure (some (collected, refs, collectedCap))
  | ci, element :: rest, collected, refs, collectedCap => do
    let some (collected, refs, collectedCap) ←
        filteredTurn jvm (answers.perClass ci) element collected refs collectedCap | return none
    filteredLoop jvm answers (ci + 1) rest collected refs collectedCap

/-- `nativeWalkHeapFiltered(classNamesArray)`. -/
def nativeWalkHeapFiltered (jvm : Jvm) (answers : FilteredAnswers)
    (classNamesArray : Option (List (Option String))) : StateM Native (Option (List Obj)) := do
  let some names := classNamesArray | return none
  if names.length = 0 then return none
  let some (collected, refs, _) ← filteredLoop jvm answers 0 names none [] 0 | return none
  liftJni (Jni.filteredTail jvm answers collected refs)

/-- `nativeResolve(tag)`: the first object reported for the tag; the others'
references are deleted. -/
def nativeResolve (jvm : Jvm) (lookupOk : Bool) (tag : Nat) : StateM Native (Option Obj) := do
  let heap ← heapNow
  liftJni do
    let some lookup ← Jni.getObjectsWithTags jvm heap lookupOk [tag] false |
      Jni.checkPrint
      return none
    Jni.deleteRefs (lookup.found.drop 1)
    Jni.deallocate lookup.objects
    return (lookup.found.head?.map Prod.snd)

/-- `nativeAdvanceEpoch()`. -/
def nativeAdvanceEpoch : StateM Native Unit := bumpEpoch

end HeapAgent
