import HeapAgent.WalkCleanup
import HeapAgent.SnapshotSpec

/-! The pending exception at the exits of the exported calls. A native method
that returns with an exception pending hands Java the exception in place of its
value. Each call raises only when a runtime call fails, and every failure but one
ends the call with `NULL`: a `GetStringUTFChars` that fails on a class name
leaves its `OutOfMemoryError` pending while the call goes on. -/

namespace HeapAgent
open Jni

namespace Jni

@[simp] theorem forM_release_pending (hs : List Handle) (j : Jni) :
    ((hs.forM release).run j).2.pending = j.pending := by
  induction hs generalizing j with
  | nil => rfl
  | cons h rest ih => simp only [List.forM_cons', StateT.run_bind, Id.bind_eq, ih, release_pending]

@[simp] theorem checkPrint_pending (j : Jni) : (checkPrint.run j).2.pending = j.pending := rfl

@[simp] theorem getObjectsWithTags_pending (jvm : Jvm) (heap : List Obj) (ok : Bool) (tags : List Nat) (withTags : Bool)
    (j : Jni) : ((getObjectsWithTags jvm heap ok tags withTags).run j).2.pending = j.pending := by
  rw [getObjectsWithTags_run]
  split <;> simp

theorem findClass_calm (jvm : Jvm) (name : String) (j : Jni) (found : ((findClass jvm name).run j).1.isSome) :
    ((findClass jvm name).run j).2.pending = j.pending := by
  unfold findClass at found ⊢
  cases resolved : jvm.findClass name
  · simp [resolved] at found
  · simp only [resolved]
    rfl

theorem newLocalRef_calm (ok : Bool) (j : Jni) (made : ((newLocalRef ok).run j).1.isSome) :
    ((newLocalRef ok).run j).2.pending = j.pending := by
  cases ok
  · simp [newLocalRef] at made
  · rfl

/-- The only exceptions `walkTail` raises come with `NULL`. -/
theorem walkTail_calm (jvm : Jvm) (answers : WalkAnswers) (colTags : Option Handle) (lookup : Lookup) (j : Jni)
    (returned : ((walkTail jvm answers colTags lookup).run j).1.isSome) :
    ((walkTail jvm answers colTags lookup).run j).2.pending = j.pending := by
  have cls := findClass_calm jvm "java/lang/Object" j
  simp only [walkTail, deleteRefs_eq, deallocate_eq, free_eq, forM_release_seq, StateT.run_bind, Id.bind_eq]
    at returned ⊢
  generalize (findClass jvm "java/lang/Object").run j = p at cls returned ⊢
  obtain ⟨_ | _, j₁⟩ := p
  · simp only [StateT.run_bind, StateT.run_pure, Id.bind_eq, Id.pure_eq, Option.isSome_none, Bool.false_eq_true]
      at returned
  have array := newLocalRef_calm answers.objectArray j₁
  simp only [StateT.run_bind, Id.bind_eq] at returned ⊢
  generalize (newLocalRef answers.objectArray).run j₁ = q at array returned ⊢
  obtain ⟨_ | _, j₂⟩ := q
  · simp only [StateT.run_bind, StateT.run_pure, Id.bind_eq, Id.pure_eq, Option.isSome_none, Bool.false_eq_true]
      at returned
  · simp only [StateT.run_bind, StateT.run_pure, Id.bind_eq, Id.pure_eq, forM_release_pending]
    rw [array rfl, cls rfl]

end Jni

@[simp] theorem tagObjects_pending (klass : Option Nat) (grows : Nat → Bool) (ok : Bool) (s : Native) :
    ((tagObjects klass grows ok).run s).2.jni.pending = s.jni.pending := by
  rw [tagObjects_run]
  cases ok
  · rfl
  · simp only [Bool.not_true, Bool.false_eq_true, ↓reduceIte]
    exact apply_ite Jni.pending _ _ _ |>.trans (ite_self _)

@[simp] theorem clearAllTags_pending (ok : Bool) (s : Native) :
    ((clearAllTags ok).run s).2.jni.pending = s.jni.pending := by
  cases ok <;> rfl

/-- `nativeWalkHeap` returns an array only with the exception state it was called with. -/
theorem nativeWalkHeap_calm (jvm : Jvm) (answers : WalkAnswers) (s : Native)
    (returned : ((nativeWalkHeap jvm answers).run s).1.isSome) :
    ((nativeWalkHeap jvm answers).run s).2.jni.pending = s.jni.pending := by
  have tagged := tagObjects_pending none answers.grows answers.tagging
    ((resetLocalCounter.run ((clearAllTags answers.clear).run s).2).2)
  have cleared := clearAllTags_pending answers.clear s
  simp only [nativeWalkHeap, StateT.run_bind, heapNow_run, liftJni_run, Id.bind_eq] at returned tagged ⊢
  generalize (tagObjects none answers.grows answers.tagging).run _ = pt at returned tagged ⊢
  obtain ⟨⟨col, colTags⟩, s₃⟩ := pt
  simp only [resetLocalCounter_run] at tagged
  rw [← cleared, ← tagged]
  by_cases empty : col.count = 0
  · simp [empty, free_eq] at returned
  simp only [empty, if_false, StateT.run_bind, StateT.run_pure, Id.bind_eq, Id.pure_eq] at returned ⊢
  have looked := getObjectsWithTags_pending jvm s₃.world.heap answers.lookup col.tags true s₃.jni
  generalize (getObjectsWithTags jvm s₃.world.heap answers.lookup col.tags true).run s₃.jni = pl
    at returned looked ⊢
  obtain ⟨_ | lookup, j₄⟩ := pl
  · simp [free_eq] at returned
  · exact (walkTail_calm jvm answers colTags lookup j₄ returned).trans looked

/-- `nativeResolve` raises nothing: each failure returns `NULL` in silence. -/
theorem nativeResolve_calm (jvm : Jvm) (lookupOk : Bool) (tag : Nat) (s : Native) :
    ((nativeResolve jvm lookupOk tag).run s).2.jni.pending = s.jni.pending := by
  have looked := getObjectsWithTags_pending jvm s.world.heap lookupOk [tag] false s.jni
  simp only [nativeResolve, StateT.run_bind, heapNow_run, liftJni_run, Id.bind_eq, deleteRefs_eq, deallocate_eq,
    forM_release_seq]
  generalize (getObjectsWithTags jvm s.world.heap lookupOk [tag] false).run s.jni = pl at looked ⊢
  obtain ⟨_ | lookup, j₁⟩ := pl <;> simpa [-release_run] using looked

/-- Gathering one class's objects raises nothing, even when `realloc` fails. -/
theorem Jni.collectClass_pending (ok : Bool) (targetClass : Handle) (colTags : Option Handle) (lookup : Lookup)
    (collected : Option Handle) (refs : List (Handle × Obj)) (collectedCap : Nat) (j : Jni) :
    ((collectClass ok targetClass colTags lookup collected refs collectedCap).run j).2.pending = j.pending := by
  simp only [collectClass, deleteRefs_eq, deallocate_eq, free_eq, deleteLocalRef_eq, forM_release_seq, StateT.run_bind,
    StateT.run_map, Id.bind_eq, Id.map_eq]
  split
  · cases ok <;> cases collected <;>
      simp only [realloc, Bool.false_eq_true, if_true, if_false, StateT.run_map, StateT.run_pure, StateT.run_bind,
        acquire_run, Id.map_eq, Id.pure_eq, Id.bind_eq, Option.map_none', Option.map_some', forM_release_pending]
  · simp only [StateT.run_bind, StateT.run_pure, Id.bind_eq, Id.pure_eq, forM_release_pending]

/-- A turn of the filtered loop whose class name was read leaves no exception
pending: a class `FindClass` misses is skipped after clearing its `NoClassDefFoundError`. -/
theorem filteredTurn_calm (jvm : Jvm) (here : ClassAnswers) (element : Option String) (collected : Option Handle)
    (refs : List (Handle × Obj)) (collectedCap : Nat) {s : Native} (read : here.chars = true)
    (calm : s.jni.pending = false) :
    ((filteredTurn jvm here element collected refs collectedCap).run s).2.jni.pending = false := by
  obtain ⟨w, log, j⟩ := s
  dsimp only at calm ⊢
  cases element with
  | none => exact calm
  | some name =>
    simp only [filteredTurn, read, getStringUTFChars, if_true, StateT.run_bind, StateT.run_map, liftJni_run,
      acquire_run, Id.bind_eq, Id.map_eq]
    cases resolved : jvm.findClass name with
    | none => simp [findClass, resolved, -release_run]
    | some cls =>
      simp only [findClass, resolved, StateT.run_bind, StateT.run_pure, StateT.run_map, acquire_run, Id.bind_eq,
        Id.pure_eq, Id.map_eq, liftJni_run, bumpEpoch_run, resetLocalCounter_run, heapNow_run]
      generalize tagged : (tagObjects (some cls) here.grows here.tagging).run _ = pt
      have quiet := congrArg (·.2.jni.pending) tagged
      simp only [tagObjects_pending, releaseStringUTFChars_pending, deleteLocalRef_pending] at quiet
      obtain ⟨⟨col, colTags⟩, s₆⟩ := pt
      dsimp only at quiet ⊢
      rw [calm] at quiet
      split
      · simpa [free_eq, -release_run] using quiet.symm
      simp only [StateT.run_bind, StateT.run_pure, Id.bind_eq, Id.pure_eq]
      have looked := getObjectsWithTags_pending jvm s₆.world.heap here.lookup col.tags true s₆.jni
      generalize (getObjectsWithTags jvm s₆.world.heap here.lookup col.tags true).run s₆.jni = pl at looked ⊢
      obtain ⟨_ | lookup, j₇⟩ := pl <;> dsimp only at looked
      · simpa [free_eq, -release_run] using looked.trans quiet.symm
      · simpa [collectClass_pending] using looked.trans quiet.symm

/-- The filtered loop, every class name read, leaves no exception pending. -/
theorem filteredLoop_calm (jvm : Jvm) (answers : FilteredAnswers) (read : ∀ ci, (answers.perClass ci).chars = true)
    (ci : Nat) (names : List (Option String)) (collected : Option Handle) (refs : List (Handle × Obj))
    (collectedCap : Nat) {s : Native} (calm : s.jni.pending = false) :
    ((filteredLoop jvm answers ci names collected refs collectedCap).run s).2.jni.pending = false := by
  induction names generalizing ci collected refs collectedCap s with
  | nil => exact calm
  | cons element rest ih =>
    have turn := filteredTurn_calm jvm (answers.perClass ci) element collected refs collectedCap (read ci) calm
    simp only [filteredLoop, StateT.run_bind, Id.bind_eq]
    generalize (filteredTurn jvm (answers.perClass ci) element collected refs collectedCap).run s = t at turn ⊢
    obtain ⟨_ | ⟨c, r, k⟩, s₁⟩ := t
    · exact turn
    · exact ih (ci + 1) c r k turn

theorem Jni.filteredTail_calm (jvm : Jvm) (answers : FilteredAnswers) (collected : Option Handle)
    (refs : List (Handle × Obj)) (j : Jni) (returned : ((filteredTail jvm answers collected refs).run j).1.isSome) :
    ((filteredTail jvm answers collected refs).run j).2.pending = j.pending := by
  have cls := findClass_calm jvm "java/lang/Object" j
  by_cases empty : refs.length = 0
  · simp [filteredTail, empty, -release_run] at returned
  simp only [filteredTail, empty, if_false, deleteRefs_eq, free_eq, forM_release_seq, StateT.run_bind, StateT.run_pure,
    Id.bind_eq, Id.pure_eq] at returned ⊢
  generalize (findClass jvm "java/lang/Object").run j = p at cls returned ⊢
  obtain ⟨_ | _, j₁⟩ := p
  · simp only [StateT.run_bind, StateT.run_pure, Id.bind_eq, Id.pure_eq, Option.isSome_none, Bool.false_eq_true]
      at returned
  have array := newLocalRef_calm answers.objectArray j₁
  simp only [StateT.run_bind, Id.bind_eq] at returned ⊢
  generalize (newLocalRef answers.objectArray).run j₁ = q at array returned ⊢
  obtain ⟨_ | _, j₂⟩ := q
  · simp only [StateT.run_bind, StateT.run_pure, Id.bind_eq, Id.pure_eq, Option.isSome_none, Bool.false_eq_true]
      at returned
  · simp only [StateT.run_bind, StateT.run_pure, Id.bind_eq, Id.pure_eq, forM_release_pending]
    rw [array rfl, cls rfl]

/-- `nativeWalkHeapFiltered`, every class name read, returns an array only
with no exception pending. -/
theorem nativeWalkHeapFiltered_calm (jvm : Jvm) (answers : FilteredAnswers)
    (read : ∀ ci, (answers.perClass ci).chars = true) (classNamesArray : Option (List (Option String))) {s : Native}
    (calm : s.jni.pending = false)
    (returned : ((nativeWalkHeapFiltered jvm answers classNamesArray).run s).1.isSome) :
    ((nativeWalkHeapFiltered jvm answers classNamesArray).run s).2.jni.pending = false := by
  obtain _ | names := classNamesArray
  · exact calm
  by_cases empty : names.length = 0
  · simp [nativeWalkHeapFiltered, empty] at returned
  have loop := filteredLoop_calm jvm answers read 0 names none [] 0 calm
  simp only [nativeWalkHeapFiltered, empty, ↓reduceIte, StateT.run_bind, StateT.run_pure, Id.pure_eq, Id.bind_eq]
    at returned ⊢
  generalize (filteredLoop jvm answers 0 names none [] 0).run s = walked at loop returned ⊢
  obtain ⟨_ | ⟨c, refs, cap⟩, s₁⟩ := walked
  · simp at returned
  simp only [liftJni_run] at returned ⊢
  exact (Jni.filteredTail_calm jvm answers c refs s₁.jni returned).trans loop

theorem entryOutcome_calm (answers : EntryAnswers) (read : answers.nameChars = true) (name : List UInt8) :
    (entryOutcome answers false name).2 = false := by
  unfold entryOutcome
  simp only [read, Bool.not_true, Bool.false_or, Bool.false_eq_true, if_false]
  split_ifs <;> rfl

/-- With every name read, the name loop leaves no exception pending. -/
theorem loopOutcome_calm (entry : Nat → EntryAnswers) (read : ∀ i, (entry i).nameChars = true) (i : Nat)
    (names : List (List UInt8)) : (loopOutcome entry i false names).2.2 = false := by
  induction names generalizing i with
  | nil => rfl
  | cons name rest ih =>
    have turn := entryOutcome_calm (entry i) (read i) name
    simp only [loopOutcome]
    generalize entryOutcome (entry i) false name = outcome at turn ⊢
    obtain ⟨_ | _, pending⟩ := outcome <;> dsimp only at turn ⊢ <;> subst turn
    · rfl
    · exact ih (i + 1)

/-- What `packNames` leaves pending is what the name loop left, when it returns. -/
theorem Jni.packNames_calm (jvm : Jvm) (answers : SnapshotAnswers) (chars : Handle) (colTags : Option Handle)
    (lookup : Lookup) (names lens : Option Handle) (j : Jni)
    (returned : ((packNames jvm answers chars colTags lookup names lens).run j).1.isSome) :
    ((packNames jvm answers chars colTags lookup names lens).run j).2.pending =
      (loopOutcome answers.entry 0 j.pending ((lookup.found.map Prod.snd).map jvm.nameOf)).2.2 := by
  obtain ⟨-, -, -, calm⟩ := nameLoop_outcome jvm answers.entry 0 lookup.found [] 4 j
  simp only [packNames, StateT.run_bind, Id.bind_eq] at returned ⊢
  generalize (nameLoop jvm answers.entry 0 lookup.found [] 4).run j = p at calm returned ⊢
  obtain ⟨⟨slots, total, done⟩, j₁⟩ := p
  dsimp only at calm returned ⊢
  rw [← calm]
  cases done
  · simp [freeCopies_eq, releaseLookup_eq, free_eq, -release_run] at returned
  by_cases big : total > intMax
  · simp [big, freeCopies_eq, releaseLookup_eq, free_eq, -release_run] at returned
  cases buf : answers.buf
  · simp [big, buf, malloc, freeCopies_eq, releaseLookup_eq, free_eq, -release_run] at returned
  cases array : answers.byteArray
  · simp [big, buf, array, malloc, newLocalRef, freeCopies_eq, releaseLookup_eq, free_eq, -release_run] at returned
  · simp [big, buf, array, malloc, newLocalRef, freeCopies_eq, releaseLookup_eq, free_eq, -release_run]

theorem Jni.snapshotTail_calm (jvm : Jvm) (answers : SnapshotAnswers) (chars : Handle) (colTags : Option Handle)
    (lookup : Lookup) (j : Jni) (returned : ((snapshotTail jvm answers chars colTags lookup).run j).1.isSome) :
    ((snapshotTail jvm answers chars colTags lookup).run j).2.pending =
      (loopOutcome answers.entry 0 j.pending ((lookup.found.map Prod.snd).map jvm.nameOf)).2.2 := by
  cases classClass : jvm.findClass "java/lang/Class"
  · simp [snapshotTail, findClass, classClass, releaseLookup_eq, -release_run] at returned
  cases getName : answers.getName
  · simp [snapshotTail, findClass, classClass, getMethodID, getName, releaseLookup_eq, -release_run] at returned
  simp only [snapshotTail, findClass, classClass, getMethodID, getName, StateT.run_bind, StateT.run_pure,
    StateT.run_map, acquire_run, Id.bind_eq, Id.pure_eq, Id.map_eq, Bool.not_true, Bool.false_eq_true, if_false]
    at returned ⊢
  by_cases present : lookup.found.length > 0
  · cases names : answers.names
    · simp [present, names, malloc, releaseLookup_eq, free_eq, -release_run] at returned
    cases lens : answers.lens
    · simp [present, names, lens, malloc, releaseLookup_eq, free_eq, -release_run] at returned
    simp only [present, names, lens, malloc, if_true, reduceCtorEq, or_self, and_false, if_false, StateT.run_bind,
      StateT.run_map, StateT.run_pure, acquire_run, Id.bind_eq, Id.map_eq, Id.pure_eq] at returned ⊢
    exact packNames_calm jvm answers chars colTags lookup _ _ _ returned
  · simp only [present, if_false, false_and, StateT.run_bind, StateT.run_pure, Id.bind_eq, Id.pure_eq]
      at returned ⊢
    exact packNames_calm jvm answers chars colTags lookup _ _ _ returned

/-- `nativeSnapshotBytes`, every class name read, returns bytes only with no
exception pending. -/
theorem nativeSnapshotBytes_calm (jvm : Jvm) (answers : SnapshotAnswers)
    (read : ∀ i, (answers.entry i).nameChars = true) (jClassName : Option String) {s : Native}
    (calm : s.jni.pending = false)
    (returned : ((nativeSnapshotBytes jvm answers jClassName).run s).1.isSome) :
    ((nativeSnapshotBytes jvm answers jClassName).run s).2.jni.pending = false := by
  obtain _ | name := jClassName
  · exact calm
  cases chars : answers.classChars
  · simp [nativeSnapshotBytes, chars, getStringUTFChars] at returned
  cases found : jvm.findClass name
  · simp [nativeSnapshotBytes, chars, found, getStringUTFChars, findClass, -release_run] at returned
  simp only [nativeSnapshotBytes, chars, found, getStringUTFChars, findClass, if_true, StateT.run_bind, StateT.run_map,
    StateT.run_pure, liftJni_run, acquire_run, clearAllTags_run, resetLocalCounter_run, heapNow_run, Id.bind_eq,
    Id.map_eq, Id.pure_eq] at returned ⊢
  generalize tagged : (tagObjects _ answers.grows answers.tagging).run _ = pt at returned ⊢
  have quiet := congrArg (·.2.jni.pending) tagged
  simp only [tagObjects_pending] at quiet
  obtain ⟨⟨col, colTags⟩, s₃⟩ := pt
  dsimp only at quiet returned ⊢
  rw [show (if answers.clear then s.jni else (checkPrint.run s.jni).2).pending = false by split <;> exact calm] at quiet
  have ended : ∀ (c : Handle) (lookup : Lookup) (j : Jni), j.pending = false →
      ((snapshotTail jvm answers c colTags lookup).run j).1.isSome →
      ((snapshotTail jvm answers c colTags lookup).run j).2.pending = false :=
    fun c lookup j calm' tail => by
      rw [snapshotTail_calm jvm answers c colTags lookup j tail, calm']
      exact loopOutcome_calm answers.entry read 0 _
  by_cases tagged : col.count > 0
  · simp only [tagged, if_true, StateT.run_bind, Id.bind_eq] at returned ⊢
    have looked := getObjectsWithTags_pending jvm s₃.world.heap answers.lookup col.tags true s₃.jni
    generalize (getObjectsWithTags jvm s₃.world.heap answers.lookup col.tags true).run s₃.jni = pl
      at looked returned ⊢
    obtain ⟨_ | lookup, j₄⟩ := pl <;> simp only [StateT.run_bind, StateT.run_pure, Id.bind_eq, Id.pure_eq]
      at returned ⊢ <;> exact ended _ _ _ (looked.trans quiet.symm) returned
  · simp only [tagged, if_false, StateT.run_bind, StateT.run_pure, Id.bind_eq, Id.pure_eq] at returned ⊢
    exact ended _ _ _ quiet.symm returned

/-- Unless `GetStringUTFChars` fails on a class name, no exported call leaves an
exception pending over a value it returns: a Java caller gets an exception only
together with `NULL`, and never from `nativeResolve`. -/
theorem calls_raise_only_with_null (jvm : Jvm) (w : World) :
    (∀ answers jClassName, (∀ i, (answers.entry i).nameChars = true) →
      ((nativeSnapshotBytes jvm answers jClassName).run (.start w)).2.jni.pending = true →
      ((nativeSnapshotBytes jvm answers jClassName).run (.start w)).1 = none) ∧
    (∀ answers, ((nativeWalkHeap jvm answers).run (.start w)).2.jni.pending = true →
      ((nativeWalkHeap jvm answers).run (.start w)).1 = none) ∧
    (∀ answers classNamesArray, (∀ ci, (answers.perClass ci).chars = true) →
      ((nativeWalkHeapFiltered jvm answers classNamesArray).run (.start w)).2.jni.pending = true →
      ((nativeWalkHeapFiltered jvm answers classNamesArray).run (.start w)).1 = none) ∧
    ∀ lookupOk tag, ((nativeResolve jvm lookupOk tag).run (.start w)).2.jni.pending = false := by
  refine ⟨fun answers jClassName read raised => Option.not_isSome_iff_eq_none.mp fun returned => ?_,
    fun answers raised => Option.not_isSome_iff_eq_none.mp fun returned => ?_,
    fun answers names read raised => Option.not_isSome_iff_eq_none.mp fun returned => ?_,
    fun lookupOk tag => nativeResolve_calm jvm lookupOk tag _⟩
  · exact absurd (raised.symm.trans (nativeSnapshotBytes_calm jvm answers read jClassName rfl returned)) nofun
  · exact absurd (raised.symm.trans (nativeWalkHeap_calm jvm answers _ returned)) nofun
  · exact absurd (raised.symm.trans (nativeWalkHeapFiltered_calm jvm answers read names rfl returned)) nofun

/-- A snapshot of a class that does not resolve: `FindClass` leaves its
`NoClassDefFoundError` pending, and the call returns `NULL` with it. -/
theorem calls_raise_only_with_null_unresolvable :
    (∀ i, (SnapshotAnswers.succeeding.entry i).nameChars = true) ∧
      ((nativeSnapshotBytes sampleJvm .succeeding (some "Z")).run (.start (World.init [⟨1, 1, 0⟩]))).2.jni.pending =
        true ∧
      ((nativeSnapshotBytes sampleJvm .succeeding (some "Z")).run (.start (World.init [⟨1, 1, 0⟩]))).1 = none :=
  ⟨fun _ => rfl, rfl,
    (calls_raise_only_with_null sampleJvm (World.init [⟨1, 1, 0⟩])).1 .succeeding (some "Z") (fun _ => rfl) rfl⟩

end HeapAgent
