import HeapAgent.Effect

/-! The process around the agent: the exported functions called one at a time,
each from a fresh native state, and the collector's work between calls. A run
is the shared state reached and the events the calls logged on the way. -/

namespace HeapAgent

/-- The exported calls, each with the runtime's answers during it. -/
inductive Call
  | snapshotBytes (answers : SnapshotAnswers) (jClassName : Option String)
  | walkHeap (answers : WalkAnswers)
  | walkHeapFiltered (answers : FilteredAnswers) (classNamesArray : Option (List (Option String)))
  | resolve (lookupOk : Bool) (tag : Nat)
  | advanceEpoch

/-- The native state a call returns in, started on the shared state `w`. -/
def Call.run (jvm : Jvm) (w : World) : Call → Native
  | .snapshotBytes answers jClassName => ((nativeSnapshotBytes jvm answers jClassName).run (.start w)).2
  | .walkHeap answers => ((nativeWalkHeap jvm answers).run (.start w)).2
  | .walkHeapFiltered answers classNamesArray =>
    ((nativeWalkHeapFiltered jvm answers classNamesArray).run (.start w)).2
  | .resolve lookupOk tag => ((nativeResolve jvm lookupOk tag).run (.start w)).2
  | .advanceEpoch => (nativeAdvanceEpoch.run (.start w)).2

/-- The collector between calls: every object it leaves was there before or is
newly allocated and untagged, identities stay distinct, and the globals are the
agent's alone. -/
structure Collects (w w' : World) : Prop where
  kept : ∀ o ∈ w'.heap, o ∈ w.heap ∨ o.tag = 0
  distinct : (w'.heap.map Obj.ref).Nodup
  epoch : w'.epoch = w.epoch
  counter : w'.counter = w.counter

/-- The runs from `init`: the shared state reached and the events logged so far. -/
inductive Run (jvm : Jvm) (init : World) : World → List Event → Prop
  | start : Run jvm init init []
  | call {w : World} {log : List Event} (call : Call) :
      Run jvm init w log → Run jvm init (call.run jvm w).world (log ++ (call.run jvm w).log)
  | collect {w w' : World} {log : List Event} : Run jvm init w log → Collects w w' → Run jvm init w' log

/-- Every call changes the shared state by one of three effects: a clear with
at most one pass, a sequence of per-class turns (none for the calls that
change nothing), or an epoch advance. -/
theorem Call.run_cases (jvm : Jvm) (w : World) (call : Call) :
    (∃ clear tagging grows klass, (call.run jvm w).world = (w.clearAndTag clear tagging grows klass).1 ∧
      (call.run jvm w).log = (w.clearAndTag clear tagging grows klass).2) ∨
    (∃ turns, (call.run jvm w).world = (w.bumpAndTagEach turns).1 ∧
      (call.run jvm w).log = (w.bumpAndTagEach turns).2) ∨
    ((call.run jvm w).world = w.advanceEpoch ∧ (call.run jvm w).log = [.bump]) := by
  cases call with
  | snapshotBytes answers jClassName =>
    cases jClassName with
    | none => exact .inr (.inl ⟨[], rfl, rfl⟩)
    | some name => exact .inl ⟨_, _, _, _, nativeSnapshotBytes_effect jvm answers name (.start w)⟩
  | walkHeap answers => exact .inl ⟨_, _, _, _, nativeWalkHeap_effect jvm answers (.start w)⟩
  | walkHeapFiltered answers classNamesArray =>
    exact .inr (.inl (nativeWalkHeapFiltered_effect jvm answers classNamesArray (.start w)))
  | resolve lookupOk tag =>
    have unchanged := nativeResolve_effect jvm lookupOk tag (.start w)
    exact .inr (.inl ⟨[], unchanged⟩)
  | advanceEpoch => exact .inr (.inr ⟨rfl, rfl⟩)

theorem Call.run_snapshotBytes (jvm : Jvm) (w : World) (answers : SnapshotAnswers) (name : String) :
    let effect := w.clearAndTag answers.clear answers.tagging answers.grows
      ((if answers.classChars then jvm.findClass name else none).map some)
    (Call.run jvm w (.snapshotBytes answers (some name))).world = effect.1 ∧
      (Call.run jvm w (.snapshotBytes answers (some name))).log = effect.2 :=
  nativeSnapshotBytes_effect jvm answers name (.start w)

/-- A runtime with the classes `X`, `Y`, `java/lang/Object` and `java/lang/Class`
(1 to 4), every one named `A`, that reports in heap order. -/
def sampleJvm : Jvm :=
  Jvm.inHeapOrder
    (fun name => if name = "X" then some 1 else if name = "Y" then some 2
      else if name = "java/lang/Object" then some 3 else if name = "java/lang/Class" then some 4 else none)
    fun _ => ⟨[65], by decide, by decide⟩

/-- The run `nativeSnapshotBytes(X); nativeSnapshotBytes(Y)` on one instance of each class. -/
theorem twoSnapshots_run :
    Run sampleJvm (World.init [⟨1, 1, 0⟩, ⟨2, 2, 0⟩])
      (Call.run sampleJvm (Call.run sampleJvm (World.init [⟨1, 1, 0⟩, ⟨2, 2, 0⟩])
        (.snapshotBytes .succeeding (some "X"))).world (.snapshotBytes .succeeding (some "Y"))).world
      ([] ++ (Call.run sampleJvm (World.init [⟨1, 1, 0⟩, ⟨2, 2, 0⟩]) (.snapshotBytes .succeeding (some "X"))).log ++
        (Call.run sampleJvm (Call.run sampleJvm (World.init [⟨1, 1, 0⟩, ⟨2, 2, 0⟩])
          (.snapshotBytes .succeeding (some "X"))).world (.snapshotBytes .succeeding (some "Y"))).log) :=
  .call _ (.call _ .start)

/-- What the two snapshots log: each clears, resets and tags its one instance
with `(1 << 32) | 1`. -/
theorem twoSnapshots_log :
    [] ++ (Call.run sampleJvm (World.init [⟨1, 1, 0⟩, ⟨2, 2, 0⟩]) (.snapshotBytes .succeeding (some "X"))).log ++
        (Call.run sampleJvm (Call.run sampleJvm (World.init [⟨1, 1, 0⟩, ⟨2, 2, 0⟩])
          (.snapshotBytes .succeeding (some "X"))).world (.snapshotBytes .succeeding (some "Y"))).log =
      [.cleared, .reset, .pass [(1, composeTag 1 1)], .cleared, .reset, .pass [(2, composeTag 1 1)]] := by
  simp [Call.run_snapshotBytes, World.clearAndTag, World.tagPass, iterateThroughHeap, heapTaggingCb, tagAdd, admits,
    sampleJvm, Jvm.inHeapOrder, SnapshotAnswers.succeeding, World.init, World.clearTags, clearTagCb,
    World.resetCounter, Obj.store, TagCollector.empty, composeTag]

/-- A call advances the epoch once per `bump` it logs. -/
theorem Call.run_epoch (jvm : Jvm) (w : World) (call : Call) :
    (call.run jvm w).world.epoch = w.epoch + (call.run jvm w).log.count .bump := by
  rcases Call.run_cases jvm w call with ⟨_, _, _, _, world, log⟩ | ⟨turns, world, log⟩ | ⟨world, log⟩ <;>
    simp [world, log, World.bumpAndTagEach_epoch, World.bumpAndTagEach_bumps]

end HeapAgent
