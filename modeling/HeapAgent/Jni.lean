import HeapAgent.Heap
import Mathlib.Data.List.Perm.Basic

/-! One native call as it meets JNI and JVMTI. The call holds handles (local
references, UTF characters, native and JVMTI buffers) that it must give back,
and a Java exception may be pending on its thread. Every runtime call that can
fail takes its answer as an argument, so a statement over all answers is a
statement over all failure patterns. The runtime's fixed behaviour, which names
resolve and what `GetObjectsWithTags` reports, is a `Jvm`. -/

namespace HeapAgent

/-- What a handle stands for. -/
inductive Kind
  | objectRef
  | localRef
  | utfChars
  | buffer
  | jvmtiBuffer
  | errorName
  deriving Repr, DecidableEq

structure Handle where
  id : Nat
  kind : Kind
  deriving Repr, DecidableEq

/-- The call's side of JNI: the pending exception, the handles it holds, the
next fresh handle, the handles it gave back without holding them, and the
strings `GetErrorName` handed to `check_print`, latest first. -/
structure Jni where
  pending : Bool
  held : List Handle
  fresh : Nat
  strays : List Handle
  names : List Handle
  deriving Repr

/-- A call's whole state: the shared world, the changes it made to it, and its
JNI side. -/
structure Native where
  world : World
  log : List Event
  jni : Jni

/-- The state a call starts in. -/
def Native.start (w : World) : Native := ⟨w, [], ⟨false, [], 0, [], []⟩⟩

@[simp] theorem Native.start_world (w : World) : (Native.start w).world = w := rfl

/-- A class name as `GetStringUTFChars` hands it over: modified UTF-8, so no zero
byte, and short enough for the `int` that `strlen` is cast to. -/
structure ClassName where
  bytes : List UInt8
  no_nul : (0 : UInt8) ∉ bytes
  fits : bytes.length < 2 ^ 31

/-- `strlen`. -/
def ClassName.strlen (name : ClassName) : Nat := (name.bytes.takeWhile (· ≠ 0)).length

theorem ClassName.strlen_eq (name : ClassName) : name.strlen = name.bytes.length := by
  rw [strlen, List.takeWhile_eq_self_iff.mpr]
  intro b member
  have nonzero : b ≠ 0 := by rintro rfl; exact name.no_nul member
  simpa using nonzero

/-- The runtime's fixed answers: the class each name resolves to, each class's
`getName`, and the order in which `GetObjectsWithTags` reports. The JVMTI
contract is that it reports exactly the objects carrying one of the tags. -/
structure Jvm where
  findClass : String → Option Nat
  className : Nat → ClassName
  objectsWithTags : List Obj → List Nat → List Obj
  reports : ∀ heap tags, (objectsWithTags heap tags).Perm (heap.filter fun o => o.tag ∈ tags)

/-- A runtime that reports the objects in heap order. -/
def Jvm.inHeapOrder (findClass : String → Option Nat) (className : Nat → ClassName) : Jvm where
  findClass := findClass
  className := className
  objectsWithTags heap tags := heap.filter fun o => o.tag ∈ tags
  reports _ _ := .refl _

/-- What `GetObjectsWithTags` hands back: the two JVMTI arrays, `NULL` when
nothing is reported, and the references with their objects. -/
structure Lookup where
  objects : Option Handle
  tagsOut : Option Handle
  found : List (Handle × Obj)

/-- `found = 0; objects = NULL; tagsOut = NULL`. -/
def Lookup.none : Lookup := ⟨.none, .none, []⟩

namespace Jni

def acquire (kind : Kind) : StateM Jni Handle := fun j =>
  (⟨j.fresh, kind⟩, { j with held := ⟨j.fresh, kind⟩ :: j.held, fresh := j.fresh + 1 })

def release (h : Handle) : StateM Jni Unit := fun j =>
  ((), if h ∈ j.held then { j with held := j.held.erase h } else { j with strays := h :: j.strays })

def raise : StateM Jni Unit := fun j => ((), { j with pending := true })

/-- `ExceptionCheck`. -/
def exceptionCheck : StateM Jni Bool := fun j => (j.pending, j)

/-- `ExceptionClear`. -/
def exceptionClear : StateM Jni Unit := fun j => ((), { j with pending := false })

/-- A call that returns a new local reference, or `NULL` with an exception. -/
def newLocalRef (ok : Bool) : StateM Jni (Option Handle) :=
  if ok then some <$> acquire .localRef else do raise; pure none

/-- `GetStringUTFChars`: the characters, or `NULL` with an `OutOfMemoryError`. -/
def getStringUTFChars (ok : Bool) : StateM Jni (Option Handle) :=
  if ok then some <$> acquire .utfChars else do raise; pure none

/-- `ReleaseStringUTFChars`. -/
def releaseStringUTFChars (chars : Handle) : StateM Jni Unit := release chars

/-- `FindClass`: a local reference to the class, or `NULL` with
`NoClassDefFoundError` pending. -/
def findClass (jvm : Jvm) (name : String) : StateM Jni (Option (Handle × Nat)) :=
  match jvm.findClass name with
  | some cls => do pure (some (← acquire .localRef, cls))
  | none => do raise; pure none

/-- `DeleteLocalRef`. -/
def deleteLocalRef (ref : Handle) : StateM Jni Unit := release ref

/-- `GetMethodID`: whether the method is found; if not, an exception is pending. -/
def getMethodID (ok : Bool) : StateM Jni Bool := if ok then pure true else do raise; pure false

/-- `GetObjectClass`. -/
def getObjectClass (ok : Bool) : StateM Jni (Option Handle) :=
  if ok then some <$> acquire .localRef else pure none

/-- `malloc`, `calloc`, or `realloc` of `NULL`: a block, or `NULL`. -/
def malloc (ok : Bool) : StateM Jni (Option Handle) :=
  if ok then some <$> acquire .buffer else pure none

/-- `realloc` of `block`: the block, kept or moved, or `NULL` with `block` kept. -/
def realloc (ok : Bool) (block : Option Handle) : StateM Jni (Option Handle) :=
  if ok then match block with
    | some h => pure (some h)
    | none => some <$> acquire .buffer
  else pure none

/-- `check_print` of an error: `GetErrorName` hands over the error's name, a
string JVMTI allocated for the call, and `check_print` prints it and never
`Deallocate`s it. -/
def checkPrint : StateM Jni Unit := fun j =>
  ((), { j with
    held := ⟨j.fresh, .errorName⟩ :: j.held
    fresh := j.fresh + 1
    names := ⟨j.fresh, .errorName⟩ :: j.names })

/-- `if (p) free(p)`. -/
def free (block : Option Handle) : StateM Jni Unit :=
  match block with
  | some h => release h
  | none => pure ()

/-- `if (p) Deallocate(p)`. -/
def deallocate (block : Option Handle) : StateM Jni Unit := free block

/-- The local references handed out from handle `fresh` on, one per object. -/
def numberRefs (fresh : Nat) (objs : List Obj) : List (Handle × Obj) :=
  objs.enum.map fun (i, o) => (⟨fresh + i, .objectRef⟩, o)

@[simp] theorem numberRefs_snd (fresh : Nat) (objs : List Obj) : (numberRefs fresh objs).map Prod.snd = objs := by
  simp [numberRefs, Function.comp_def, List.enum_map_snd]

/-- One new local reference for each reported object. -/
def acquireRefs (objs : List Obj) : StateM Jni (List (Handle × Obj)) := fun j =>
  (numberRefs j.fresh objs,
    { j with held := (numberRefs j.fresh objs).reverse.map Prod.fst ++ j.held, fresh := j.fresh + objs.length })

@[simp] theorem acquire_run (kind : Kind) (j : Jni) :
    (acquire kind).run j = (⟨j.fresh, kind⟩, { j with held := ⟨j.fresh, kind⟩ :: j.held, fresh := j.fresh + 1 }) :=
  rfl

@[simp] theorem release_run (h : Handle) (j : Jni) :
    (release h).run j =
      ((), if h ∈ j.held then { j with held := j.held.erase h } else { j with strays := h :: j.strays }) := rfl

@[simp] theorem release_pending (h : Handle) (j : Jni) : ((release h).run j).2.pending = j.pending := by
  rw [release_run]
  split <;> rfl

@[simp] theorem releaseStringUTFChars_pending (chars : Handle) (j : Jni) :
    ((releaseStringUTFChars chars).run j).2.pending = j.pending := release_pending chars j

@[simp] theorem deleteLocalRef_pending (ref : Handle) (j : Jni) :
    ((deleteLocalRef ref).run j).2.pending = j.pending := release_pending ref j

@[simp] theorem checkPrint_run (j : Jni) :
    checkPrint.run j = ((), { j with
      held := ⟨j.fresh, .errorName⟩ :: j.held
      fresh := j.fresh + 1
      names := ⟨j.fresh, .errorName⟩ :: j.names }) := rfl

@[simp] theorem raise_run (j : Jni) : raise.run j = ((), { j with pending := true }) := rfl

@[simp] theorem exceptionCheck_run (j : Jni) : exceptionCheck.run j = (j.pending, j) := rfl

@[simp] theorem exceptionClear_run (j : Jni) : exceptionClear.run j = ((), { j with pending := false }) := rfl

@[simp] theorem acquireRefs_run (objs : List Obj) (j : Jni) :
    (acquireRefs objs).run j = (numberRefs j.fresh objs,
      { j with held := (numberRefs j.fresh objs).reverse.map Prod.fst ++ j.held, fresh := j.fresh + objs.length }) :=
  rfl

end Jni

/-- Run a JNI action inside a call; the world is untouched. -/
def liftJni {α : Type} (m : StateM Jni α) : StateM Native α := fun s =>
  let (a, j) := m s.jni
  (a, { s with jni := j })

@[simp] theorem liftJni_run {α : Type} (m : StateM Jni α) (s : Native) :
    (liftJni m).run s = ((m.run s.jni).1, { s with jni := (m.run s.jni).2 }) := rfl

/-- `clear_all_tags`: the clearing iteration runs when `ok`, else its error goes
to `check_print` and the tags stay. -/
def clearAllTags (ok : Bool) : StateM Native Unit := fun s =>
  ((), { s with
    world := if ok then s.world.clearTags else s.world
    log := s.log ++ [if ok then .cleared else .failed]
    jni := if ok then s.jni else (Jni.checkPrint.run s.jni).2 })

/-- `__sync_synchronize(); g_local_counter = 1;` -/
def resetLocalCounter : StateM Native Unit := fun s =>
  ((), { s with world := s.world.resetCounter, log := s.log ++ [.reset] })

/-- `__sync_fetch_and_add(&g_epoch, 1)`. -/
def bumpEpoch : StateM Native Unit := fun s =>
  ((), { s with world := s.world.advanceEpoch, log := s.log ++ [.bump] })

/-- The tagging `IterateThroughHeap` with a zeroed collector: when `ok` the pass
runs, else its error goes to `check_print` and the collector stays empty. The
collector's array, once allocated, is a buffer the call must free. -/
def tagObjects (klass : Option Nat) (grows : Nat → Bool) (ok : Bool) :
    StateM Native (TagCollector × Option Handle) := fun s =>
  if ok then
    let (world, col, writes) := s.world.tagPass klass grows
    let (buffer, j) := (if col.holdsBuffer then some <$> Jni.acquire .buffer else pure none : StateM Jni _) s.jni
    ((col, buffer), { s with world, log := s.log ++ [.pass writes], jni := j })
  else ((.empty, none), { s with log := s.log ++ [.failed], jni := (Jni.checkPrint.run s.jni).2 })

@[simp] theorem clearAllTags_run (ok : Bool) (s : Native) :
    (clearAllTags ok).run s =
      ((), { s with
        world := if ok then s.world.clearTags else s.world
        log := s.log ++ [if ok then .cleared else .failed]
        jni := if ok then s.jni else (Jni.checkPrint.run s.jni).2 }) :=
  rfl

@[simp] theorem resetLocalCounter_run (s : Native) :
    resetLocalCounter.run s = ((), { s with world := s.world.resetCounter, log := s.log ++ [.reset] }) := rfl

@[simp] theorem bumpEpoch_run (s : Native) :
    bumpEpoch.run s = ((), { s with world := s.world.advanceEpoch, log := s.log ++ [.bump] }) := rfl

@[simp] theorem tagObjects_run (klass : Option Nat) (grows : Nat → Bool) (ok : Bool) (s : Native) :
    (tagObjects klass grows ok).run s =
      let pass := s.world.tagPass klass grows
      let col := if ok then pass.2.1 else .empty
      ((col, if col.holdsBuffer then some ⟨s.jni.fresh, .buffer⟩ else none),
        { world := if ok then pass.1 else s.world, log := s.log ++ [if ok then .pass pass.2.2 else .failed],
          jni := if !ok then (Jni.checkPrint.run s.jni).2 else if col.holdsBuffer then
            { s.jni with held := ⟨s.jni.fresh, .buffer⟩ :: s.jni.held, fresh := s.jni.fresh + 1 } else s.jni }) := by
  unfold tagObjects
  cases ok
  · rfl
  · simp only [StateT.run, if_true]
    generalize s.world.tagPass klass grows = pass
    obtain ⟨world, col, writes⟩ := pass
    by_cases holds : col.holdsBuffer <;> simp [holds] <;> rfl

namespace Jni

/-- What `GetObjectsWithTags` hands over for the objects `found`: a local
reference each and, when there are any, the JVMTI arrays. -/
def handOver (found : List Obj) (withTags : Bool) : StateM Jni Lookup := do
  let refs ← acquireRefs found
  if found = [] then pure ⟨.none, .none, refs⟩
  else
    let objects ← acquire .jvmtiBuffer
    let tagsOut ← if withTags then some <$> acquire .jvmtiBuffer else pure .none
    pure ⟨some objects, tagsOut, refs⟩

@[simp] theorem handOver_found (found : List Obj) (withTags : Bool) (j : Jni) :
    ((handOver found withTags).run j).1.found.map Prod.snd = found := by
  unfold handOver
  split
  · simp
  · cases withTags <;> simp

@[simp] theorem handOver_pending (found : List Obj) (withTags : Bool) (j : Jni) :
    ((handOver found withTags).run j).2.pending = j.pending := by
  unfold handOver
  split
  · simp
  · cases withTags <;> simp

/-- `GetObjectsWithTags` over `heap` for `tags`, with or without the tags array.
JVMTI refuses a zero tag. -/
def getObjectsWithTags (jvm : Jvm) (heap : List Obj) (ok : Bool) (tags : List Nat) (withTags : Bool) :
    StateM Jni (Option Lookup) :=
  if ok ∧ 0 ∉ tags then some <$> handOver (jvm.objectsWithTags heap tags) withTags else pure none

end Jni

/-- The heap as the runtime sees it at this point of the call. -/
def heapNow : StateM Native (List Obj) := fun s => (s.world.heap, s)

@[simp] theorem heapNow_run (s : Native) : heapNow.run s = (s.world.heap, s) := rfl

end HeapAgent
