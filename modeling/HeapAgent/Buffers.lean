import HeapAgent.System

/-! The reference buffer `collected` of `nativeWalkHeapFiltered`, which takes each
resolved class's `objs` array in turn and grows to `found + 64`, then to
`collectedCap * 2 + found`, when a batch does not fit. With every growth
granted, the class loop of the walk builds exactly this buffer from the batches
its lookups report. Last, the `jint` values both growable buffers compute,
against `INT32_MAX`. -/

namespace HeapAgent

section Collected

variable {α : Type}

/-- `collectedCap` after `found` references are appended to `collectedCount`
held ones, with `realloc` granting the growth. -/
def appendCapacity (collectedCount collectedCap found : Nat) : Nat :=
  if found > 0 ∧ collectedCount + found > collectedCap then Jni.grownCapacity collectedCap found else collectedCap

/-- The buffer, as the references it holds and `collectedCap`, after one
class's `objs` array is appended. -/
def appendBatch (buffer : List α × Nat) (objs : List α) : List α × Nat :=
  (buffer.1 ++ objs, appendCapacity buffer.1.length buffer.2 objs.length)

/-- The buffer after the batches of several classes, in class order. -/
def appendBatches (buffer : List α × Nat) : List (List α) → List α × Nat
  | [] => buffer
  | objs :: rest => appendBatches (appendBatch buffer objs) rest

/-- A buffer that holds no more than its capacity has room, after the growth
check, for the whole batch. -/
theorem add_le_appendCapacity {collectedCount collectedCap : Nat} (fits : collectedCount ≤ collectedCap) (found : Nat) :
    collectedCount + found ≤ appendCapacity collectedCount collectedCap found := by
  unfold appendCapacity Jni.grownCapacity
  split_ifs <;> omega

@[simp] theorem appendBatches_append (buffer : List α × Nat) (batches more : List (List α)) :
    appendBatches buffer (batches ++ more) = appendBatches (appendBatches buffer batches) more := by
  induction batches generalizing buffer with
  | nil => rfl
  | cons objs rest ih => exact ih _

theorem appendBatches_refs (buffer : List α × Nat) (batches : List (List α)) :
    (appendBatches buffer batches).1 = buffer.1 ++ batches.flatten := by
  induction batches generalizing buffer with
  | nil => simp [appendBatches]
  | cons objs rest ih => simp [appendBatches, ih, appendBatch]

theorem appendBatches_fits {buffer : List α × Nat} (fits : buffer.1.length ≤ buffer.2) (batches : List (List α)) :
    (appendBatches buffer batches).1.length ≤ (appendBatches buffer batches).2 := by
  induction batches generalizing buffer with
  | nil => exact fits
  | cons objs rest ih => exact ih (by simpa [appendBatch] using add_le_appendCapacity fits objs.length)

end Collected

/-! The batches the filtered walk appends. -/

/-- One element's turn of the filtered walk from `w` with the answers `here`,
its growth of `collected` granted: the state after it and the objects its
lookup reported. -/
def collectTurn (jvm : Jvm) (here : ClassAnswers) (w : World) (element : Option String) : World × List Obj :=
  match element.bind fun name => if here.chars then jvm.findClass name else none with
  | none => (w, [])
  | some cls =>
    let pass := w.advanceEpoch.resetCounter.tagPass (some cls) here.grows
    (if here.tagging then pass.1 else w.advanceEpoch.resetCounter,
      if here.tagging ∧ 0 < pass.2.1.count ∧ here.lookup ∧ 0 ∉ pass.2.1.tags then
        jvm.objectsWithTags pass.1.heap pass.2.1.tags
      else [])

/-- The class loop of the filtered walk from `w` and class index `ci`, every
growth of `collected` granted: the state after it and each element's batch, in
order. -/
def collectAll (jvm : Jvm) (answers : FilteredAnswers) (ci : Nat) (w : World) :
    List (Option String) → World × List (List Obj)
  | [] => (w, [])
  | element :: rest =>
    let turn := collectTurn jvm (answers.perClass ci) w element
    let after := collectAll jvm answers (ci + 1) turn.1 rest
    (after.1, turn.2 :: after.2)

/-- With its growth granted, `collectClass` appends the lookup's references as
`appendBatch` does, capacity included. -/
theorem Jni.collectClass_appendBatch (targetClass : Handle) (colTags : Option Handle) (lookup : Lookup)
    (collected : Option Handle) (refs : List (Handle × Obj)) (collectedCap : Nat) (j : Jni) :
    ((Jni.collectClass true targetClass colTags lookup collected refs collectedCap).run j).1.map
        (fun next => (next.2.1.map Prod.snd, next.2.2)) =
      some (appendBatch (refs.map Prod.snd, collectedCap) (lookup.found.map Prod.snd)) := by
  unfold Jni.collectClass
  by_cases grows : lookup.found.length > 0 ∧ refs.length + lookup.found.length > collectedCap
  · cases collected <;> simp [grows, Jni.realloc, appendBatch, appendCapacity]
  · simp [grows, appendBatch, appendCapacity]

section Loop

variable (jvm : Jvm)

/-- A turn of the filtered walk whose growth is granted appends its batch to the
buffer as `appendBatch` does and leaves the state `collectTurn` gives. -/
theorem filteredTurn_appends (here : ClassAnswers) (granted : here.collect = true) (element : Option String)
    (collected : Option Handle) (refs : List (Handle × Obj)) (collectedCap : Nat) (s : Native) :
    ((filteredTurn jvm here element collected refs collectedCap).run s).1.map
        (fun next => (next.2.1.map Prod.snd, next.2.2)) =
      some (appendBatch (refs.map Prod.snd, collectedCap) (collectTurn jvm here s.world element).2) ∧
      ((filteredTurn jvm here element collected refs collectedCap).run s).2.world =
        (collectTurn jvm here s.world element).1 := by
  have skip : appendBatch (refs.map Prod.snd, collectedCap) [] = (refs.map Prod.snd, collectedCap) := by
    simp [appendBatch, appendCapacity]
  obtain ⟨chars, tagging, grows, lookup, collect⟩ := here
  simp only at granted
  subst granted
  cases element with
  | none => simp [filteredTurn, collectTurn, skip]
  | some name =>
    cases chars
    · simp [filteredTurn, collectTurn, Jni.getStringUTFChars, skip]
    cases found : jvm.findClass name with
    | none => simp [filteredTurn, collectTurn, found, Jni.getStringUTFChars, Jni.findClass, skip]
    | some cls =>
      simp only [collectTurn, Option.some_bind, ↓reduceIte, found]
      generalize pass : s.world.advanceEpoch.resetCounter.tagPass (some cls) grows = p
      simp only [filteredTurn, Jni.getStringUTFChars, ↓reduceIte, Jni.findClass, found, bind_pure_comp, pure_bind,
        StateT.run_bind, liftJni_run, Jni.acquire_run, StateT.run_map, Id.map_eq, Id.bind_eq, bumpEpoch_run,
        resetLocalCounter_run, tagObjects_run, heapNow_run, Jni.deleteLocalRef_pending,
        Jni.releaseStringUTFChars_pending, pass]
      cases tagging
      · simp [skip, TagCollector.empty, Jni.free]
      by_cases count : p.2.1.count = 0
      · simp [count, skip]
      cases lookup
      · simp [count, skip, Jni.getObjectsWithTags]
      by_cases zero : 0 ∈ p.2.1.tags
      · simp [count, zero, skip, Jni.getObjectsWithTags]
      · simp [count, zero, Jni.getObjectsWithTags, Jni.collectClass_appendBatch, Nat.pos_of_ne_zero count]

/-- The class loop of the filtered walk, every growth of `collected` granted,
from a buffer holding `refs` with capacity `collectedCap`: it ends holding
`appendBatches` of the batches its lookups reported, one per element and in
order, capacity included, and leaves the state `collectAll` gives. -/
theorem filteredLoop_appends (answers : FilteredAnswers) (granted : ∀ ci, (answers.perClass ci).collect = true)
    (ci : Nat) (names : List (Option String)) (collected : Option Handle) (refs : List (Handle × Obj))
    (collectedCap : Nat) (s : Native) :
    ((filteredLoop jvm answers ci names collected refs collectedCap).run s).1.map
        (fun done => (done.2.1.map Prod.snd, done.2.2)) =
      some (appendBatches (refs.map Prod.snd, collectedCap) (collectAll jvm answers ci s.world names).2) ∧
      ((filteredLoop jvm answers ci names collected refs collectedCap).run s).2.world =
        (collectAll jvm answers ci s.world names).1 := by
  induction names generalizing ci collected refs collectedCap s with
  | nil => simp [filteredLoop, collectAll, appendBatches]
  | cons element rest ih =>
    obtain ⟨turnBuffer, turnWorld⟩ :=
      filteredTurn_appends jvm (answers.perClass ci) (granted ci) element collected refs collectedCap s
    rw [filteredLoop_cons]
    generalize (filteredTurn jvm (answers.perClass ci) element collected refs collectedCap).run s = turn
      at turnBuffer turnWorld
    obtain ⟨result, s₁⟩ := turn
    obtain ⟨⟨collected', refs', cap'⟩, rfl, appended⟩ := Option.map_eq_some'.mp turnBuffer
    obtain ⟨loopBuffer, loopWorld⟩ := ih (ci + 1) collected' refs' cap' s₁
    rw [turnWorld] at loopBuffer loopWorld
    refine ⟨?_, loopWorld⟩
    simpa [collectAll, appendBatches, ← appended] using loopBuffer

/-- `nativeWalkHeapFiltered` over a list, every growth of `collected` granted
and `java/lang/Object` and the result array obtained: it returns the batches its
lookups reported, in order, or `NULL` when they are all empty, and leaves the
state the class loop gives. -/
theorem nativeWalkHeapFiltered_collects (answers : FilteredAnswers) (granted : ∀ ci, (answers.perClass ci).collect = true)
    (array : answers.objectArray = true) (names : List (Option String)) (s : Native)
    (objectClass : jvm.findClass "java/lang/Object" ≠ none) :
    ((nativeWalkHeapFiltered jvm answers (some names)).run s).1 =
        (if (collectAll jvm answers 0 s.world names).2.flatten = [] then none
          else some (collectAll jvm answers 0 s.world names).2.flatten) ∧
      ((nativeWalkHeapFiltered jvm answers (some names)).run s).2.world = (collectAll jvm answers 0 s.world names).1 := by
  cases names with
  | nil => simp [nativeWalkHeapFiltered, collectAll]
  | cons element rest =>
    obtain ⟨loopBuffer, loopWorld⟩ := filteredLoop_appends jvm answers granted 0 (element :: rest) none [] 0 s
    simp only [nativeWalkHeapFiltered, List.length_cons, Nat.add_one_ne_zero, if_false, StateT.run_bind,
      StateT.run_pure, Id.bind_eq]
    generalize (filteredLoop jvm answers 0 (element :: rest) none [] 0).run s = loop at loopBuffer loopWorld
    obtain ⟨result, s₁⟩ := loop
    obtain ⟨⟨collected, refs, cap⟩, rfl, found⟩ := Option.map_eq_some'.mp loopBuffer
    obtain ⟨cls, resolves⟩ := Option.ne_none_iff_exists'.mp objectClass
    have objects : refs.map Prod.snd = (collectAll jvm answers 0 s.world (element :: rest)).2.flatten := by
      simpa [appendBatches_refs] using congrArg Prod.fst found
    rw [← objects, ← loopWorld]
    cases refs <;> simp [Jni.filteredTail, Jni.findClass, resolves, Jni.newLocalRef, array]

end Loop

/-! The `jint` values of the filtered walk's buffer. -/

section Arithmetic

variable {α : Type}

/-- The `jint` values one append computes: `collectedCount + found`, the new
capacity when the batch does not fit (`found + 64`, or `collectedCap * 2` and
`collectedCap * 2 + found`), and the `i++` and `collectedCount++` of the copy
loop. -/
def appendArith (collectedCount collectedCap found : Nat) : List Nat :=
  if found > 0 then
    (collectedCount + found) ::
      ((if collectedCount + found > collectedCap then
          if collectedCap = 0 then [found + 64] else [collectedCap * 2, collectedCap * 2 + found]
        else []) ++ List.range' 1 found ++ List.range' (collectedCount + 1) found)
  else []

/-- The `jint` values of the appends of several batches, in class order. -/
def appendBatchesArith (buffer : List α × Nat) : List (List α) → List Nat
  | [] => []
  | objs :: rest => appendArith buffer.1.length buffer.2 objs.length ++ appendBatchesArith (appendBatch buffer objs) rest

/-- Growth happens only when the new count passes the capacity, so the doubled
capacity stays below twice the new count. -/
theorem appendArith_le {collectedCount collectedCap : Nat} (fits : collectedCount ≤ collectedCap) (found : Nat) :
    ∀ v ∈ appendArith collectedCount collectedCap found, v ≤ 3 * (collectedCount + found) + 64 := by
  intro v member
  unfold appendArith at member
  split_ifs at member <;> simp at member <;> omega

theorem appendBatchesArith_le {buffer : List α × Nat} (fits : buffer.1.length ≤ buffer.2) (batches : List (List α)) :
    ∀ v ∈ appendBatchesArith buffer batches, v ≤ 3 * (buffer.1.length + (batches.map List.length).sum) + 64 := by
  induction batches generalizing buffer with
  | nil => simp [appendBatchesArith]
  | cons objs rest ih =>
    intro v member
    rcases List.mem_append.mp member with here | later
    · have := appendArith_le fits objs.length v here
      simp only [List.map_cons, List.sum_cons]
      omega
    · have := ih (by simpa [appendBatch] using add_le_appendCapacity fits objs.length) v later
      simp only [appendBatch, List.length_append] at this
      simp only [List.map_cons, List.sum_cons]
      omega

/-- A nonempty first batch, then one of more than 64 references: the room of
`found + 64` the first growth left is too small, and the second growth computes
`collectedCap * 2 + found`. -/
theorem appendBatchesArith_regrows (first second : List α) (filled : 0 < first.length) (more : 64 < second.length) :
    (first.length + 64) * 2 + second.length ∈ appendBatchesArith ([], 0) [first, second] := by
  have grown : appendBatch ([], 0) first = (first, first.length + 64) := by
    simp [appendBatch, appendCapacity, Jni.grownCapacity, filled]
  have past : first.length + second.length > first.length + 64 := by omega
  have nonempty : second.length > 0 := by omega
  simp [appendBatchesArith, grown, appendArith, filled, past, nonempty]

end Arithmetic

/-- The appends of per-class batches whose sizes add up to less than `2 ^ 29`,
with every growth granted: no `jint` value of them passes `INT32_MAX`, and at
each batch the buffer holds the batches before it in class order and no more
than `collectedCap`, every store `collected[collectedCount++]` of the batch
lands below the capacity the growth check left, and afterwards the buffer
holds the batch after them, again within its capacity. -/
theorem appendBatches_keep_room {α : Type} (batches : List (List α)) (few : (batches.map List.length).sum < 2 ^ 29) :
    (∀ v ∈ appendBatchesArith ([], 0) batches, v ≤ intMax) ∧
      ∀ pre objs post, batches = pre ++ objs :: post →
        let before := appendBatches ([], 0) pre
        let after := appendBatch before objs
        before.1 = pre.flatten ∧ before.1.length ≤ before.2 ∧ (∀ i < objs.length, before.1.length + i < after.2) ∧
          after.1 = (pre ++ [objs]).flatten ∧ after.1.length ≤ after.2 := by
  refine ⟨fun v member => ?_, fun pre objs post _ => ?_⟩
  · have := @appendBatchesArith_le _ ([], 0) le_rfl batches v member
    simp only [List.length_nil, Nat.zero_add] at this
    unfold intMax
    omega
  · have fits := @appendBatches_fits _ ([], 0) le_rfl pre
    have room := add_le_appendCapacity fits objs.length
    simp only [appendBatch, appendBatches_refs, List.nil_append, List.flatten_concat, List.length_append] at fits room ⊢
    exact ⟨trivial, fits, fun i inside => by omega, trivial, room⟩

/-- For every state, list of class names and answers of `nativeWalkHeapFiltered`
in which every growth of `collected` is granted, with batches adding up to
fewer than `2 ^ 29` references: the class loop ends holding exactly
`appendBatches` of the batches its lookups reported, in class order, capacity
included; no `jint` value of the appends passes `INT32_MAX`; and at each batch
the buffer holds the batches before it and no more than `collectedCap`, every
store `collected[collectedCount++]` lands below the capacity the growth check
left, and afterwards the buffer holds the batch after them within its
capacity. -/
theorem filtered_buffer_holds_batches (jvm : Jvm) (answers : FilteredAnswers)
    (granted : ∀ ci, (answers.perClass ci).collect = true) (names : List (Option String)) (s : Native)
    (few : ((collectAll jvm answers 0 s.world names).2.map List.length).sum < 2 ^ 29) :
    let batches := (collectAll jvm answers 0 s.world names).2
    ((filteredLoop jvm answers 0 names none [] 0).run s).1.map (fun done => (done.2.1.map Prod.snd, done.2.2)) =
        some (appendBatches ([], 0) batches) ∧
      (∀ v ∈ appendBatchesArith ([], 0) batches, v ≤ intMax) ∧
      ∀ pre objs post, batches = pre ++ objs :: post →
        let before := appendBatches ([], 0) pre
        let after := appendBatch before objs
        before.1 = pre.flatten ∧ before.1.length ≤ before.2 ∧ (∀ i < objs.length, before.1.length + i < after.2) ∧
          after.1 = (pre ++ [objs]).flatten ∧ after.1.length ≤ after.2 :=
  ⟨by simpa using (filteredLoop_appends jvm answers granted 0 names none [] 0 s).1, appendBatches_keep_room _ few⟩

/-- The filtered walk over `X` and `Y` on one instance of each and one more of
`X`, every runtime call succeeding. -/
theorem filtered_buffer_holds_batches_twoClasses :
    ((filteredLoop sampleJvm .succeeding 0 [some "X", some "Y"] none [] 0).run
        (.start (World.init [⟨1, 1, 0⟩, ⟨2, 2, 0⟩, ⟨3, 1, 0⟩]))).1.map (fun done => (done.2.1.map Prod.snd, done.2.2)) =
      some (appendBatches ([], 0) (collectAll sampleJvm .succeeding 0 (World.init [⟨1, 1, 0⟩, ⟨2, 2, 0⟩, ⟨3, 1, 0⟩])
        [some "X", some "Y"]).2) :=
  (filtered_buffer_holds_batches sampleJvm .succeeding (fun _ => rfl) [some "X", some "Y"]
    (.start (World.init [⟨1, 1, 0⟩, ⟨2, 2, 0⟩, ⟨3, 1, 0⟩])) (by decide)).1


/-- Neither buffer keeps its `jint` arithmetic within `INT32_MAX` for every count
a `jint` holds: `2 ^ 30 + 1` `tag_add` calls with every growth granted compute
`capacity * 2 = 2 ^ 31`, and classes of `2 ^ 30 - 64` and then `65` instances
make the filtered walk compute `collectedCap * 2 + found = 2 ^ 31 + 65`. -/
theorem buffer_arithmetic_overflows :
    2 ^ 30 + 1 ≤ intMax ∧ intMax < 2 ^ 31 ∧ 2 ^ 31 ∈ tagAddAllArith .empty (List.replicate (2 ^ 30 + 1) (true, 0)) ∧
      ([List.replicate (2 ^ 30 - 64) (), List.replicate 65 ()].map List.length).sum ≤ intMax ∧
      2 ^ 31 + 65 ∈ appendBatchesArith ([], 0) [List.replicate (2 ^ 30 - 64) (), List.replicate 65 ()] := by
  have doubled := tagAddAllArith_doubles 23 0
  have regrown := appendBatchesArith_regrows (List.replicate (2 ^ 30 - 64) ()) (List.replicate 65 ())
    (by rw [List.length_replicate]; decide) (by rw [List.length_replicate]; decide)
  rw [List.length_replicate, List.length_replicate] at regrown
  rw [show 128 * 2 ^ 23 = 2 ^ 30 from rfl, show 2 ^ 30 * 2 = 2 ^ 31 from rfl] at doubled
  rw [show (2 ^ 30 - 64 + 64) * 2 + 65 = 2 ^ 31 + 65 from rfl] at regrown
  refine ⟨by decide, by decide, doubled, ?_, regrown⟩
  simp only [List.map_cons, List.map_nil, List.length_replicate, List.sum_cons, List.sum_nil]
  decide

/-- Both buffers keep their `jint` arithmetic within `INT32_MAX` for every
sequence of at most `2 ^ 30` `tag_add` calls, whatever `realloc` answers, and
for every sequence of batches appended by the filtered walk whose sizes `n` add
up to at most `(INT32_MAX - 64) / 3`; in particular for the batches the class
loop of `nativeWalkHeapFiltered` appends, with every growth granted, from any
state. -/
theorem buffer_arithmetic_fits_jint {α : Type} :
    (∀ calls : List (Bool × Nat), calls.length ≤ 2 ^ 30 → ∀ v ∈ tagAddAllArith .empty calls, v ≤ intMax) ∧
      (∀ batches : List (List α), 3 * (batches.map List.length).sum + 64 ≤ intMax →
        ∀ v ∈ appendBatchesArith ([], 0) batches, v ≤ intMax) ∧
      ∀ (jvm : Jvm) (answers : FilteredAnswers), (∀ ci, (answers.perClass ci).collect = true) →
        ∀ (names : List (Option String)) (s : Native),
          3 * ((collectAll jvm answers 0 s.world names).2.map List.length).sum + 64 ≤ intMax →
          ((filteredLoop jvm answers 0 names none [] 0).run s).1.map (fun done => (done.2.1.map Prod.snd, done.2.2)) =
              some (appendBatches ([], 0) (collectAll jvm answers 0 s.world names).2) ∧
            ∀ v ∈ appendBatchesArith ([], 0) (collectAll jvm answers 0 s.world names).2, v ≤ intMax := by
  have batchesFit : ∀ {β : Type} (batches : List (List β)), 3 * (batches.map List.length).sum + 64 ≤ intMax →
      ∀ v ∈ appendBatchesArith ([], 0) batches, v ≤ intMax := fun batches few v member => by
    have := @appendBatchesArith_le _ ([], 0) le_rfl batches v member
    simp only [List.length_nil, Nat.zero_add] at this
    omega
  refine ⟨fun calls few v member => ?_, batchesFit, fun jvm answers granted names s few =>
    ⟨by simpa using (filteredLoop_appends jvm answers granted 0 names none [] 0 s).1, batchesFit _ few⟩⟩
  have := @tagAddAllArith_le .empty le_rfl calls v member
  simp only [TagCollector.empty, Nat.zero_add] at this
  unfold intMax
  omega

/-- Sequences that grow each buffer twice: 129 `tag_add` calls, the last of
which doubles the array of 128, and batches of 2 and 70 references, the second
outgrowing the room of 66 that the first growth left; and the batches of the
filtered walk over `X` on two instances. -/
theorem buffer_arithmetic_fits_jint_regrown :
    256 ∈ tagAddAllArith .empty (List.replicate 129 (true, 0)) ∧
      (∀ v ∈ tagAddAllArith .empty (List.replicate 129 (true, 0)), v ≤ intMax) ∧
      (2 + 64) * 2 + 70 ∈ appendBatchesArith ([], 0) [List.replicate 2 (), List.replicate 70 ()] ∧
      (∀ v ∈ appendBatchesArith ([], 0) [List.replicate 2 (), List.replicate 70 ()], v ≤ intMax) ∧
      ∀ v ∈ appendBatchesArith ([], 0)
        (collectAll sampleJvm .succeeding 0 (World.init [⟨1, 1, 0⟩, ⟨2, 1, 0⟩]) [some "X"]).2, v ≤ intMax :=
  ⟨by simpa only [Nat.pow_zero, Nat.mul_one, Nat.reduceMul, Nat.reduceAdd] using tagAddAllArith_doubles 0 0,
    (@buffer_arithmetic_fits_jint Unit).1 _ (by simp),
    by simpa only [List.length_replicate] using
      appendBatchesArith_regrows (List.replicate 2 ()) (List.replicate 70 ()) (by decide) (by decide),
    (@buffer_arithmetic_fits_jint Unit).2.1 _ (by decide),
    ((@buffer_arithmetic_fits_jint Unit).2.2 sampleJvm .succeeding (fun _ => rfl) [some "X"]
      (.start (World.init [⟨1, 1, 0⟩, ⟨2, 1, 0⟩])) (by decide)).2⟩

end HeapAgent
