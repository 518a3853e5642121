import HeapAgent.Jni
import HeapAgent.Wire

/-! `Java_migrator_heap_NativeHeapWalker_nativeSnapshotBytes`: clear every tag,
reset the counter, tag the instances of one class, look them up, resolve each
one's class name, size the buffer, pack it and copy it into a `byte[]`. Every
exit of the source is kept with its own cleanup. -/

namespace HeapAgent

/-- How the runtime answers the calls of one turn of the name loop; `true` is
success. -/
structure EntryAnswers where
  objectClass : Bool
  getName : Bool
  nameChars : Bool
  copy : Bool

/-- The answers of a turn in which every runtime call succeeds. -/
@[simps] def EntryAnswers.succeeding : EntryAnswers := ⟨true, true, true, true⟩

/-- How the runtime answers one call of `nativeSnapshotBytes`; `true` is success. -/
structure SnapshotAnswers where
  clear : Bool
  classChars : Bool
  tagging : Bool
  grows : Nat → Bool
  lookup : Bool
  getName : Bool
  names : Bool
  lens : Bool
  entry : Nat → EntryAnswers
  buf : Bool
  byteArray : Bool

/-- The answers of a call in which every runtime call succeeds. -/
@[simps] def SnapshotAnswers.succeeding : SnapshotAnswers :=
  ⟨true, true, true, fun _ => true, true, true, true, true, fun _ => .succeeding, true, true⟩

/-- `names[i]` and `lens[i]`: the copy's block with its bytes, and the length. -/
structure Slot where
  copy : Option Handle
  name : List UInt8
  len : Nat

/-- `names[i] = NULL; lens[i] = 0;` -/
def Slot.empty : Slot := ⟨none, [], 0⟩

/-- What the packing loop reads of a slot: the name when `names[i]` is a copy,
and `lens[i]`. -/
def Slot.view (slot : Slot) : Option (List UInt8) × Nat := (slot.copy.map fun _ => slot.name, slot.len)

/-- `INT_MAX`. -/
def intMax : Nat := 2 ^ 31 - 1

namespace Jni

/-- One turn of the name loop for the reported object `obj`: its slot and what
it adds to `total`, or `none` when the name copy cannot be allocated. -/
def nameEntry (jvm : Jvm) (answers : EntryAnswers) (obj : Handle × Obj) :
    StateM Jni (Option (Slot × Nat)) := do
  let some oc ← getObjectClass answers.objectClass |
    if ← exceptionCheck then exceptionClear
    deleteLocalRef obj.1
    return some (.empty, 0)
  let jn ← newLocalRef answers.getName
  if ← exceptionCheck then
    exceptionClear
    deleteLocalRef oc
    deleteLocalRef obj.1
    return some (.empty, 0)
  let some cn ← getStringUTFChars answers.nameChars |
    if let some jn := jn then deleteLocalRef jn
    deleteLocalRef oc
    deleteLocalRef obj.1
    return some (.empty, 0)
  let name := jvm.className obj.2.cls
  let len := name.strlen
  let copy ← if len > 0 then malloc answers.copy else pure none
  if len > 0 ∧ copy = none then
    releaseStringUTFChars cn
    if let some jn := jn then deleteLocalRef jn
    deleteLocalRef oc
    deleteLocalRef obj.1
    return none
  releaseStringUTFChars cn
  if let some jn := jn then deleteLocalRef jn
  deleteLocalRef oc
  deleteLocalRef obj.1
  return some (⟨copy, if len > 0 then name.bytes else [], len⟩, 8 + 4 + len)

/-- The name loop from entry `i` on: the slots and `total`, and whether it ran
to the end. -/
def nameLoop (jvm : Jvm) (entry : Nat → EntryAnswers) :
    Nat → List (Handle × Obj) → List Slot → Nat → StateM Jni (List Slot × Nat × Bool)
  | _, [], slots, total => pure (slots, total, true)
  | i, obj :: rest, slots, total => do
    match ← nameEntry jvm (entry i) obj with
    | some (slot, size) => nameLoop jvm entry (i + 1) rest (slots ++ [slot]) (total + size)
    | none => pure (slots, total, false)

/-- `for (i < found) if (names && names[i]) free(names[i])`. -/
def freeCopies : List Slot → StateM Jni Unit
  | [] => pure ()
  | slot :: rest => do free slot.copy; freeCopies rest

/-- The exit shared by every path after the lookup: the JVMTI arrays, the tag
buffer and the class name's characters. -/
def releaseLookup (lookup : Lookup) (colTags : Option Handle) (chars : Handle) : StateM Jni Unit := do
  deallocate lookup.objects
  deallocate lookup.tagsOut
  free colTags
  releaseStringUTFChars chars

/-- The entries the packing loop reads: `tagsOut[i]`, `names[i]`, `lens[i]`. -/
def packed (found : List (Handle × Obj)) (slots : List Slot) : List (Nat × Option (List UInt8) × Nat) :=
  (found.zip slots).map fun (obj, slot) => (obj.2.tag, slot.view)

/-- `nativeSnapshotBytes` from the name loop on, with `names` and `lens`
allocated: resolve the names, size the buffer, pack it, copy it out, free. -/
def packNames (jvm : Jvm) (answers : SnapshotAnswers) (chars : Handle) (colTags : Option Handle) (lookup : Lookup)
    (names lens : Option Handle) : StateM Jni (Option (List UInt8)) := do
  let found := lookup.found
  let (slots, total, complete) ← nameLoop jvm answers.entry 0 found [] 4
  if !complete then
    checkPrint
    freeCopies slots
    free names
    free lens
    releaseLookup lookup colTags chars
    return none
  if total > intMax then
    checkPrint
    freeCopies slots
    free names
    free lens
    releaseLookup lookup colTags chars
    return none
  let some buf ← malloc answers.buf |
    checkPrint
    freeCopies slots
    free names
    free lens
    releaseLookup lookup colTags chars
    return none
  let written := packSnapshot found.length (packed found slots)
  let some _ ← newLocalRef answers.byteArray |
    checkPrint
    free (some buf)
    freeCopies slots
    free names
    free lens
    releaseLookup lookup colTags chars
    return none
  free (some buf)
  freeCopies slots
  free names
  free lens
  releaseLookup lookup colTags chars
  return some (written.take total)

/-- `nativeSnapshotBytes` from `FindClass(env, "java/lang/Class")` on. -/
def snapshotTail (jvm : Jvm) (answers : SnapshotAnswers) (chars : Handle) (colTags : Option Handle)
    (lookup : Lookup) : StateM Jni (Option (List UInt8)) := do
  let some _ ← findClass jvm "java/lang/Class" |
    releaseLookup lookup colTags chars
    return none
  if !(← getMethodID answers.getName) then
    releaseLookup lookup colTags chars
    return none
  let found := lookup.found
  let names ← if found.length > 0 then malloc answers.names else pure none
  let lens ← if found.length > 0 then malloc answers.lens else pure none
  if found.length > 0 ∧ (names = none ∨ lens = none) then
    checkPrint
    free names
    free lens
    releaseLookup lookup colTags chars
    return none
  packNames jvm answers chars colTags lookup names lens

end Jni

/-- `nativeSnapshotBytes(jClassName)`. The returned array holds the first
`total` bytes of what the packing loop wrote into the `total`-byte buffer. -/
def nativeSnapshotBytes (jvm : Jvm) (answers : SnapshotAnswers) (jClassName : Option String) :
    StateM Native (Option (List UInt8)) := do
  let some className := jClassName | return none
  clearAllTags answers.clear
  resetLocalCounter
  let some chars ← liftJni (Jni.getStringUTFChars answers.classChars) | return none
  let some (_, cls) ← liftJni (Jni.findClass jvm className) |
    liftJni (Jni.releaseStringUTFChars chars)
    return none
  let (col, colTags) ← tagObjects (some cls) answers.grows answers.tagging
  let heap ← heapNow
  liftJni do
    let lookup ← if col.count > 0 then do
        let some lookup ← Jni.getObjectsWithTags jvm heap answers.lookup col.tags true |
          Jni.checkPrint
          pure .none
        pure lookup
      else pure .none
    Jni.snapshotTail jvm answers chars colTags lookup

end HeapAgent
