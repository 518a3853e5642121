import HeapAgent.Tag
import HeapAgent.Collector

/-! The heap as the agent reaches it: `IterateThroughHeap` with the two callbacks
of the source, and the shared state `g_epoch`, `g_local_counter` and the tags.
The iteration is the runtime's; its contract is that it visits every object of
the filtered class once, in some order that we fix as the list order, and stops
when the callback's answer, a bit vector of visit-control flags, has
`JVMTI_VISIT_ABORT` set. It also reports the tag writes it let the callback
make, which is what a tagging pass issues. -/

namespace HeapAgent

/-- A heap object as the agent sees it: its identity, its class and its tag. -/
structure Obj where
  ref : Nat
  cls : Nat
  tag : Nat
  deriving Repr, DecidableEq

/-- `JVMTI_VISIT_ABORT`, the visit-control bit on which `IterateThroughHeap`
stops. -/
def jvmtiVisitAbort : Nat := 0x8000

/-- `JVMTI_ITERATION_CONTINUE` of `jvmtiIterationControl`. -/
def jvmtiIterationContinue : Nat := 1

/-- `JVMTI_ITERATION_ABORT` of `jvmtiIterationControl`, the value 0. -/
def jvmtiIterationAbort : Nat := 0

/-- Whether `IterateThroughHeap` visits on after a callback answered `visit`. -/
def continues (visit : Nat) : Bool := visit &&& jvmtiVisitAbort == 0

/-- `JVMTI_ITERATION_CONTINUE` continues a heap iteration. -/
@[simp] theorem continues_iterationContinue : continues jvmtiIterationContinue = true := by decide

/-- `JVMTI_ITERATION_ABORT` has no `JVMTI_VISIT_ABORT` bit: answered by a
heap-iteration callback, it continues the iteration too. -/
@[simp] theorem continues_iterationAbort : continues jvmtiIterationAbort = true := by decide

/-- The class filter of `IterateThroughHeap`: `none` admits every object. -/
def admits (klass : Option Nat) (o : Obj) : Bool := klass.all (· == o.cls)

/-- The object after a callback answered `write` through `tag_ptr`. -/
def Obj.store (o : Obj) : Option Nat → Obj
  | none => o
  | some tag => { o with tag }

/-- `IterateThroughHeap` driving a heap-iteration callback over `heap`. The
callback sees an object's tag and answers the tag it writes, if any, and its
`jint` return value. Returns the heap, the callback's final state and the
writes it made, as (object, tag) pairs in visiting order. -/
def iterateThroughHeap {σ : Type} (klass : Option Nat) (callback : σ → Nat → Option Nat × σ × Nat) :
    List Obj → σ → List Obj × σ × List (Nat × Nat)
  | [], state => ([], state, [])
  | o :: rest, state =>
    if admits klass o then
      let (write, state', visit) := callback state o.tag
      let wrote := (write.map (o.ref, ·)).toList
      if continues visit then
        let (rest', final, writes) := iterateThroughHeap klass callback rest state'
        (o.store write :: rest', final, wrote ++ writes)
      else (o.store write :: rest, state', wrote)
    else
      let (rest', final, writes) := iterateThroughHeap klass callback rest state
      (o :: rest', final, writes)

/-- `clear_tag_cb`. -/
def clearTagCb (state : Unit) (tag : Nat) : Option Nat × Unit × Nat :=
  (if tag ≠ 0 then some 0 else none, state, jvmtiIterationContinue)

/-- What `heap_tagging_cb` changes besides the tag: the local counter it
increments and the collector it gets as `user_data`. -/
structure Tagging where
  counter : Nat
  col : TagCollector
  deriving Repr

/-- `heap_tagging_cb`, reading `g_epoch` as `epoch`. `grows n` answers the
`realloc` that `tag_add` makes when the collector holds `n` tags. -/
def heapTaggingCb (epoch : Nat) (grows : Nat → Bool) (state : Tagging) (tag : Nat) :
    Option Nat × Tagging × Nat :=
  if tag ≠ 0 then (none, state, jvmtiIterationContinue)
  else
    let issued := composeTag epoch state.counter
    let (added, col) := tagAdd (grows state.col.count) state.col issued
    (some issued, ⟨state.counter + 1, col⟩, if added then jvmtiIterationContinue else jvmtiIterationAbort)

/-- The state the exported calls share: the heap and the globals `g_epoch` and
`g_local_counter`. -/
structure World where
  heap : List Obj
  epoch : Nat
  counter : Nat
  deriving Repr

/-- What a call does to the shared state, in order: a `pass` lists the (object,
tag) pairs one tagging pass wrote, and `failed` is an `IterateThroughHeap` that
reported an error and visited nothing. -/
inductive Event
  | cleared
  | reset
  | bump
  | pass (writes : List (Nat × Nat))
  | failed
  deriving Repr, DecidableEq

namespace World

/-- The process as it starts: `g_epoch = 1`, `g_local_counter = 1`. -/
def init (heap : List Obj) : World := ⟨heap, 1, 1⟩

/-- `clear_all_tags` when its iteration runs. -/
def clearTags (w : World) : World :=
  { w with heap := (iterateThroughHeap none clearTagCb w.heap ()).1 }

/-- `g_local_counter = 1`. -/
def resetCounter (w : World) : World := { w with counter := 1 }

/-- `__sync_fetch_and_add(&g_epoch, 1)`. -/
def advanceEpoch (w : World) : World := { w with epoch := w.epoch + 1 }

/-- One tagging `IterateThroughHeap` from a zeroed collector: the world after
it, the collector and the writes. -/
def tagPass (w : World) (klass : Option Nat) (grows : Nat → Bool) :
    World × TagCollector × List (Nat × Nat) :=
  let (heap, final, writes) :=
    iterateThroughHeap klass (heapTaggingCb w.epoch grows) w.heap ⟨w.counter, .empty⟩
  ({ w with heap, counter := final.counter }, final.col, writes)

@[simp] theorem resetCounter_heap (w : World) : w.resetCounter.heap = w.heap := rfl
@[simp] theorem resetCounter_epoch (w : World) : w.resetCounter.epoch = w.epoch := rfl
@[simp] theorem resetCounter_counter (w : World) : w.resetCounter.counter = 1 := rfl
@[simp] theorem advanceEpoch_heap (w : World) : w.advanceEpoch.heap = w.heap := rfl
@[simp] theorem advanceEpoch_epoch (w : World) : w.advanceEpoch.epoch = w.epoch + 1 := rfl
@[simp] theorem advanceEpoch_counter (w : World) : w.advanceEpoch.counter = w.counter := rfl
@[simp] theorem clearTags_epoch (w : World) : w.clearTags.epoch = w.epoch := rfl
@[simp] theorem clearTags_counter (w : World) : w.clearTags.counter = w.counter := rfl
@[simp] theorem tagPass_epoch (w : World) (klass : Option Nat) (grows : Nat → Bool) :
    (w.tagPass klass grows).1.epoch = w.epoch := rfl

end World

end HeapAgent
