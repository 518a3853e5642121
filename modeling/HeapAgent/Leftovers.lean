import HeapAgent.System
import HeapAgent.Pass

/-! What a call leaves behind when it returns: a Java exception still pending,
handles it acquired and never gave back, and tags it cleared before it found out
it could not go on. -/

namespace HeapAgent

/-- An unreadable or unresolvable class name ends `nativeSnapshotBytes` with
`NULL` and the exception of `GetStringUTFChars` or `FindClass` still pending:
neither exit calls `ExceptionClear`. -/
theorem nativeSnapshotBytes_pending (jvm : Jvm) (answers : SnapshotAnswers) (name : String) (s : Native)
    (fails : answers.classChars = false ∨ jvm.findClass name = none) :
    ((nativeSnapshotBytes jvm answers (some name)).run s).1 = none ∧
      ((nativeSnapshotBytes jvm answers (some name)).run s).2.jni.pending = true := by
  rcases fails with chars | unknown
  · simp [nativeSnapshotBytes, chars, Jni.getStringUTFChars]
  · cases chars : answers.classChars <;>
      simp [nativeSnapshotBytes, chars, unknown, Jni.getStringUTFChars, Jni.findClass, Jni.releaseStringUTFChars]

/-- `nativeSnapshotBytes("Z")` for a class `Z` that does not resolve returns
`NULL` with `NoClassDefFoundError` pending. -/
theorem nativeSnapshotBytes_unknownClass_pending :
    ((nativeSnapshotBytes sampleJvm .succeeding (some "Z")).run (.start (World.init []))).1 = none ∧
      ((nativeSnapshotBytes sampleJvm .succeeding (some "Z")).run (.start (World.init []))).2.jni.pending = true :=
  nativeSnapshotBytes_pending sampleJvm .succeeding "Z" _ (.inr (by decide))

/-- `nativeWalkHeap` on a one-object heap where `FindClass("java/lang/Object")`
fails returns with the object's local reference from `GetObjectsWithTags` still
held: that exit deallocates the arrays but deletes no reference. -/
theorem nativeWalkHeap_objectClassMissing_leak :
    ∃ h ∈ ((nativeWalkHeap (Jvm.inHeapOrder (fun _ => none) fun _ => ⟨[65], by decide, by decide⟩) .succeeding).run
      (.start (World.init [⟨1, 1, 0⟩]))).2.jni.held, h.kind = .objectRef := by
  simp [nativeWalkHeap, Jni.walkTail, Jni.getObjectsWithTags, Jni.handOver, Jni.findClass, Jvm.inHeapOrder,
    World.init, World.clearTags, World.tagPass, iterateThroughHeap, clearTagCb, heapTaggingCb, tagAdd, admits,
    Obj.store, TagCollector.empty, composeTag, WalkAnswers.succeeding, Jni.numberRefs, Jni.free, Native.start,
    Jni.deallocate, TagCollector.holdsBuffer]

/-- On every state, an unreadable or unresolvable class name makes
`nativeSnapshotBytes` return `NULL` only after `clear_all_tags()` and
`g_local_counter = 1` have run: `g_epoch` is kept, the counter is 1, and when the
clearing iteration runs every object is left untagged, so no tag resolves any
more. -/
theorem unresolvable_snapshot_clears_tags (jvm : Jvm) (answers : SnapshotAnswers) (name : String) (w : World)
    (fails : answers.classChars = false ∨ jvm.findClass name = none) :
    let r := (nativeSnapshotBytes jvm answers (some name)).run (.start w)
    r.1 = none ∧ r.2.world = (if answers.clear then w.clearTags else w).resetCounter ∧
      r.2.world.epoch = w.epoch ∧ r.2.world.counter = 1 ∧
      (answers.clear = true → (∀ o ∈ r.2.world.heap, o.tag = 0) ∧
        ∀ tag, ((nativeResolve jvm true tag).run (.start r.2.world)).1 = none) := by
  intro r
  have world : r.2.world = (if answers.clear then w.clearTags else w).resetCounter := by
    rw [(nativeSnapshotBytes_effect jvm answers name (.start w)).1]
    rcases fails with chars | unknown
    · simp [World.clearAndTag, chars]
    · cases answers.classChars <;> simp [World.clearAndTag, unknown]
  refine ⟨(nativeSnapshotBytes_pending jvm answers name _ fails).1, world, by rw [world]; split <;> rfl,
    by simp [world], fun cleared => ?_⟩
  have untagged : ∀ o ∈ r.2.world.heap, o.tag = 0 := by
    simpa [world, cleared] using World.clearTags_untagged w
  refine ⟨untagged, fun tag => ?_⟩
  rw [nativeResolve_result]
  by_cases zero : tag = 0
  · simp [zero]
  · have none : r.2.world.heap.filter (fun o => o.tag ∈ [tag]) = [] :=
      List.filter_eq_nil_iff.mpr fun o member => by simp [untagged o member, Ne.symm zero]
    simp [zero, List.perm_nil.mp (none ▸ jvm.reports r.2.world.heap [tag])]

/-- `nativeSnapshotBytes("Z")`, `Z` resolving to no class, on one instance of `X`
that an earlier call tagged. -/
theorem unresolvable_snapshot_clears_tags_taggedX :
    (SnapshotAnswers.succeeding.classChars = false ∨ sampleJvm.findClass "Z" = none) ∧
      let r := (nativeSnapshotBytes sampleJvm .succeeding (some "Z")).run (.start (World.init [⟨1, 1, composeTag 1 1⟩]))
      r.1 = none ∧
        r.2.world = (if SnapshotAnswers.succeeding.clear then (World.init [⟨1, 1, composeTag 1 1⟩]).clearTags
          else World.init [⟨1, 1, composeTag 1 1⟩]).resetCounter ∧
        r.2.world.epoch = (World.init [⟨1, 1, composeTag 1 1⟩]).epoch ∧ r.2.world.counter = 1 ∧
        (SnapshotAnswers.succeeding.clear = true → (∀ o ∈ r.2.world.heap, o.tag = 0) ∧
          ∀ tag, ((nativeResolve sampleJvm true tag).run (.start r.2.world)).1 = none) :=
  ⟨.inr (by decide), unresolvable_snapshot_clears_tags sampleJvm .succeeding "Z" _ (.inr (by decide))⟩

/-- `nativeSnapshotBytes(X)` hands out the tag `(1 << 32) | 1` of the one
instance of `X`, which `nativeResolve` then answers; a following
`nativeSnapshotBytes("Z")`, `Z` resolving to no class, returns `NULL`, and the
tag resolves no more. -/
theorem unresolvable_snapshot_forgets_tag :
    let first := Call.run sampleJvm (World.init [⟨1, 1, 0⟩]) (.snapshotBytes .succeeding (some "X"))
    let second := Call.run sampleJvm first.world (.snapshotBytes .succeeding (some "Z"))
    Run sampleJvm (World.init [⟨1, 1, 0⟩]) second.world ([] ++ first.log ++ second.log) ∧
      ((nativeResolve sampleJvm true (composeTag 1 1)).run (.start first.world)).1 = some ⟨1, 1, composeTag 1 1⟩ ∧
      ((nativeSnapshotBytes sampleJvm .succeeding (some "Z")).run (.start first.world)).1 = none ∧
      ((nativeResolve sampleJvm true (composeTag 1 1)).run (.start second.world)).1 = none := by
  intro first second
  have tagged : first.world = ⟨[⟨1, 1, composeTag 1 1⟩], 1, 2⟩ := by
    simp [first, Call.run_snapshotBytes, World.clearAndTag, World.tagPass, iterateThroughHeap, heapTaggingCb, tagAdd,
      admits, sampleJvm, Jvm.inHeapOrder, World.init, World.clearTags, clearTagCb, World.resetCounter, Obj.store,
      TagCollector.empty]
  have cleared : second.world = ⟨[⟨1, 1, 0⟩], 1, 1⟩ := by
    rw [(Call.run_snapshotBytes sampleJvm first.world .succeeding "Z").1, tagged]
    simp [World.clearAndTag, sampleJvm, Jvm.inHeapOrder, World.clearTags, iterateThroughHeap, clearTagCb, admits,
      Obj.store, World.resetCounter, composeTag]
  refine ⟨.call _ (.call _ .start), ?_, (nativeSnapshotBytes_pending sampleJvm _ "Z" _ (.inr (by decide))).1, ?_⟩
  · rw [nativeResolve_result, tagged]
    decide
  · rw [nativeResolve_result, cleared]
    decide

end HeapAgent
