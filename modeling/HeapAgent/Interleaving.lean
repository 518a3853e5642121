import HeapAgent.Coverage

/-! Two clearing calls, `nativeSnapshotBytes` or `nativeWalkHeap`, on different
threads. With every runtime call succeeding, a call's steps over the shared
state are its clear, its counter reset, its tagging iteration and its lookup,
each one atomic step, and a schedule says which thread takes the next one.
Nothing orders the two calls: a call whose steps run back to back reports
exactly what its own pass tagged, but the other call's clear, reset and pass
landing among its steps make both passes hand out the same tags. -/

namespace HeapAgent

/-- The next step of a clearing call over the shared state. -/
inductive Phase
  | clear
  | reset
  | tag
  | lookup
  | done
  deriving Repr, DecidableEq

/-- A clearing call in progress on its thread: the class filter of its pass
(`some C` for `nativeSnapshotBytes(C)`, `none` for `nativeWalkHeap`), its next
step, the collector its pass filled and the objects its lookup reported. -/
structure Thread where
  klass : Option Nat
  phase : Phase
  col : TagCollector
  found : List Obj
  deriving Repr, DecidableEq

namespace Thread

/-- A call about to clear. -/
def start (klass : Option Nat) : Thread := ⟨klass, .clear, .empty, []⟩

/-- One atomic step of the call on the shared state `w`: `clear_all_tags()`,
`g_local_counter = 1`, the tagging `IterateThroughHeap`, or `GetObjectsWithTags`
on the collected tags, which the call skips when it collected none. -/
def step (jvm : Jvm) (w : World) (t : Thread) : World × Thread :=
  match t.phase with
  | .clear => (w.clearTags, { t with phase := .reset })
  | .reset => (w.resetCounter, { t with phase := .tag })
  | .tag =>
    let pass := w.tagPass t.klass fun _ => true
    (pass.1, { t with phase := .lookup, col := pass.2.1 })
  | .lookup =>
    let found := if 0 < t.col.count ∧ 0 ∉ t.col.tags then jvm.objectsWithTags w.heap t.col.tags else []
    (w, { t with phase := .done, found })
  | .done => (w, t)

end Thread

/-- The two threads run on `w` by a schedule: `false` steps the first thread,
`true` the second. -/
def interleave (jvm : Jvm) : List Bool → World → Thread → Thread → World × Thread × Thread
  | [], w, a, b => (w, a, b)
  | false :: rest, w, a, b => interleave jvm rest (a.step jvm w).1 (a.step jvm w).2 b
  | true :: rest, w, a, b => interleave jvm rest (b.step jvm w).1 a (b.step jvm w).2

section Schedule

variable (jvm : Jvm)

theorem interleave_block (klass : Option Nat) (w : World) (b : Thread) :
    let pass := w.clearTags.resetCounter.tagPass klass fun _ => true
    interleave jvm [false, false, false, false] w (.start klass) b =
      (pass.1, ⟨klass, .done, pass.2.1,
        if 0 < pass.2.1.count ∧ 0 ∉ pass.2.1.tags then jvm.objectsWithTags pass.1.heap pass.2.1.tags else []⟩, b) :=
  rfl

theorem interleave_block_snapshot (name : String) {cls : Nat} (resolves : jvm.findClass name = some cls) (w : World)
    (b : Thread) :
    (interleave jvm [false, false, false, false] w (.start (some cls)) b).2.1.found = snapshotFound jvm .succeeding w cls ∧
      (interleave jvm [false, false, false, false] w (.start (some cls)) b).1 =
        (Call.run jvm w (.snapshotBytes .succeeding (some name))).world := by
  have grows : SnapshotAnswers.succeeding.grows = fun _ => true := rfl
  rw [interleave_block, (Call.run_snapshotBytes jvm w .succeeding name).1]
  simp [snapshotFound, World.clearAndTag, resolves, grows]

theorem interleave_block_walk (objectClass : jvm.findClass "java/lang/Object" ≠ none) (w : World) (b : Thread) :
    (interleave jvm [false, false, false, false] w (.start none) b).2.1.found =
        ((nativeWalkHeap jvm .succeeding).run (.start w)).1.getD [] ∧
      (interleave jvm [false, false, false, false] w (.start none) b).1 = (Call.run jvm w (.walkHeap .succeeding)).world := by
  have grows : WalkAnswers.succeeding.grows = fun _ => true := rfl
  rw [interleave_block, nativeWalkHeap_result]
  refine ⟨?_, by simp [Call.run, (nativeWalkHeap_effect jvm .succeeding _).1, World.clearAndTag, grows]⟩
  by_cases reported : 0 < (w.clearTags.resetCounter.tagPass none fun _ => true).2.1.count ∧
      0 ∉ (w.clearTags.resetCounter.tagPass none fun _ => true).2.1.tags
  · simp [reported, objectClass, grows]
  · simp only [reported, if_false, WalkAnswers.succeeding_clear, WalkAnswers.succeeding_tagging,
      WalkAnswers.succeeding_lookup, WalkAnswers.succeeding_objectArray, grows, Native.start_world, if_true,
      true_and, and_true, objectClass, ne_eq, not_false_eq_true]
    rfl

end Schedule

end HeapAgent
