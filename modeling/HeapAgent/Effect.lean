import HeapAgent.Snapshot
import HeapAgent.Walk

/-! What each exported call does to the shared state. A call changes the tags
and the globals only in a few fixed steps: the clear and the counter reset, the
epoch advance, and the tagging passes. Each lemma here says which of them a call
takes and logs; the system-level proofs use the calls through these lemmas only. -/

namespace HeapAgent

namespace World

/-- `clear_all_tags(); g_local_counter = 1;` then, when the call gets that far
(`klass = some _`), the tagging pass over `klass`: the world after, and the
events. -/
def clearAndTag (w : World) (clear tagging : Bool) (grows : Nat → Bool) (klass : Option (Option Nat)) :
    World × List Event :=
  let reset := (if clear then w.clearTags else w).resetCounter
  let events := [if clear then .cleared else .failed, .reset]
  match klass with
  | none => (reset, events)
  | some klass =>
    let pass := reset.tagPass klass grows
    (if tagging then pass.1 else reset, events ++ [if tagging then .pass pass.2.2 else .failed])

/-- One class's turn of the filtered walk once the class resolved: the epoch
advance, the counter reset and the tagging pass over the class. -/
def bumpAndTag (w : World) (tagging : Bool) (grows : Nat → Bool) (cls : Nat) : World × List Event :=
  let reset := w.advanceEpoch.resetCounter
  let pass := reset.tagPass (some cls) grows
  (if tagging then pass.1 else reset, [.bump, .reset, if tagging then .pass pass.2.2 else .failed])

/-- The turns of the filtered walk that resolved their class, one after the other. -/
def bumpAndTagEach (w : World) : List (Bool × (Nat → Bool) × Nat) → World × List Event
  | [] => (w, [])
  | (tagging, grows, cls) :: rest =>
    let turn := w.bumpAndTag tagging grows cls
    let after := turn.1.bumpAndTagEach rest
    (after.1, turn.2 ++ after.2)

section Epochs

variable (w : World) (clear tagging : Bool) (grows : Nat → Bool)

@[simp] theorem clearAndTag_epoch (klass : Option (Option Nat)) :
    (w.clearAndTag clear tagging grows klass).1.epoch = w.epoch := by
  cases klass <;> cases clear <;> cases tagging <;> simp [clearAndTag]

@[simp] theorem clearAndTag_bumps (klass : Option (Option Nat)) :
    (w.clearAndTag clear tagging grows klass).2.count .bump = 0 := by
  cases klass <;> cases clear <;> cases tagging <;> simp [clearAndTag]

@[simp] theorem bumpAndTag_epoch (cls : Nat) : (w.bumpAndTag tagging grows cls).1.epoch = w.epoch + 1 := by
  cases tagging <;> simp [bumpAndTag]

@[simp] theorem bumpAndTag_bumps (cls : Nat) : (w.bumpAndTag tagging grows cls).2.count .bump = 1 := by
  cases tagging <;> simp [bumpAndTag]

theorem bumpAndTagEach_epoch (turns : List (Bool × (Nat → Bool) × Nat)) :
    (w.bumpAndTagEach turns).1.epoch = w.epoch + turns.length := by
  induction turns generalizing w with
  | nil => rfl
  | cons turn rest ih => simp only [bumpAndTagEach, ih, bumpAndTag_epoch, List.length_cons]; omega

theorem bumpAndTagEach_bumps (turns : List (Bool × (Nat → Bool) × Nat)) :
    (w.bumpAndTagEach turns).2.count .bump = turns.length := by
  induction turns generalizing w with
  | nil => rfl
  | cons turn rest ih => simp only [bumpAndTagEach, List.count_append, ih, bumpAndTag_bumps, List.length_cons]; omega

end Epochs

end World

section Calls

variable (jvm : Jvm)

theorem nativeSnapshotBytes_none (answers : SnapshotAnswers) (s : Native) :
    (nativeSnapshotBytes jvm answers none).run s = (none, s) := rfl

/-- `nativeSnapshotBytes` clears and resets, then tags the class once its name
is read and resolved. -/
theorem nativeSnapshotBytes_effect (answers : SnapshotAnswers) (name : String) (s : Native) :
    let r := (nativeSnapshotBytes jvm answers (some name)).run s
    let effect := s.world.clearAndTag answers.clear answers.tagging answers.grows
      ((if answers.classChars then jvm.findClass name else none).map some)
    r.2.world = effect.1 ∧ r.2.log = s.log ++ effect.2 := by
  cases chars : answers.classChars <;> cases found : jvm.findClass name <;>
    simp only [nativeSnapshotBytes, Jni.getStringUTFChars, chars, Bool.false_eq_true, ↓reduceIte, bind_pure_comp,
      Jni.findClass, found, gt_iff_lt, bind_map_left, pure_bind, StateT.run_bind, clearAllTags_run,
      resetLocalCounter_run, liftJni_run, StateT.run_map, Jni.acquire_run, Jni.raise_run, Id.map_eq, Id.bind_eq,
      StateT.run_pure, Id.pure_eq, tagObjects_run, heapNow_run, List.append_assoc, List.singleton_append,
      List.cons_append, List.nil_append, World.clearAndTag, Option.map_none', Option.map_some', and_self, true_and]

/-- `nativeWalkHeap` clears, resets and tags the whole heap. -/
theorem nativeWalkHeap_effect (answers : WalkAnswers) (s : Native) :
    let r := (nativeWalkHeap jvm answers).run s
    let effect := s.world.clearAndTag answers.clear answers.tagging answers.grows (some none)
    r.2.world = effect.1 ∧ r.2.log = s.log ++ effect.2 := by
  simp [nativeWalkHeap, World.clearAndTag]

/-- A turn of the filtered walk changes the shared state only when the name is
read and resolves, and then by the epoch advance, the reset and the pass. -/
theorem filteredTurn_effect (here : ClassAnswers) (element : Option String) (collected : Option Handle)
    (refs : List (Handle × Obj)) (collectedCap : Nat) (s : Native) :
    let r := (filteredTurn jvm here element collected refs collectedCap).run s
    match element.bind fun name => if here.chars then jvm.findClass name else none with
    | none => r.2.world = s.world ∧ r.2.log = s.log
    | some cls => r.2.world = (s.world.bumpAndTag here.tagging here.grows cls).1 ∧
        r.2.log = s.log ++ (s.world.bumpAndTag here.tagging here.grows cls).2 := by
  cases element with
  | none => simp [filteredTurn]
  | some name =>
    cases chars : here.chars <;> cases found : jvm.findClass name <;>
      simp only [↓reduceIte, Bool.false_eq_true, Option.bind_none, Option.some_bind, found, filteredTurn,
        Jni.getStringUTFChars, chars, Jni.findClass, bind_pure_comp, Bool.not_eq_eq_eq_not, Bool.not_true, pure_bind,
        StateT.run_bind, liftJni_run, Jni.acquire_run, StateT.run_map, Id.map_eq, Id.bind_eq, Jni.raise_run,
        Jni.exceptionCheck_run, Jni.deleteLocalRef_pending, Jni.releaseStringUTFChars_pending, Jni.exceptionClear_run,
        bumpEpoch_run, resetLocalCounter_run, tagObjects_run, heapNow_run, List.append_assoc, List.singleton_append,
        World.bumpAndTag, and_self]

theorem filteredLoop_cons (answers : FilteredAnswers) (ci : Nat) (element : Option String)
    (rest : List (Option String)) (collected : Option Handle) (refs : List (Handle × Obj)) (collectedCap : Nat)
    (s : Native) :
    (filteredLoop jvm answers ci (element :: rest) collected refs collectedCap).run s =
      match (filteredTurn jvm (answers.perClass ci) element collected refs collectedCap).run s with
      | (none, s₁) => (none, s₁)
      | (some (collected, refs, collectedCap), s₁) =>
        (filteredLoop jvm answers (ci + 1) rest collected refs collectedCap).run s₁ := by
  simp only [filteredLoop, StateT.run_bind]
  rcases (filteredTurn jvm (answers.perClass ci) element collected refs collectedCap).run s with
    ⟨_ | ⟨collected, refs, collectedCap⟩, s₁⟩ <;> rfl

/-- A state reached from `s` by one turn's effect and then by some turns is
reached from `s` by some turns. -/
private theorem turns_prepend {tagging : Bool} {grows : Nat → Bool} {resolved : Option Nat} {s s₁ : Native}
    {world : World} {log : List Event}
    (turn : match resolved with
      | none => s₁.world = s.world ∧ s₁.log = s.log
      | some cls => s₁.world = (s.world.bumpAndTag tagging grows cls).1 ∧
          s₁.log = s.log ++ (s.world.bumpAndTag tagging grows cls).2)
    (later : ∃ turns, world = (s₁.world.bumpAndTagEach turns).1 ∧ log = s₁.log ++ (s₁.world.bumpAndTagEach turns).2) :
    ∃ turns, world = (s.world.bumpAndTagEach turns).1 ∧ log = s.log ++ (s.world.bumpAndTagEach turns).2 := by
  obtain ⟨turns, rfl, rfl⟩ := later
  cases resolved with
  | none => exact ⟨turns, by rw [turn.1], by rw [turn.1, turn.2]⟩
  | some cls => exact ⟨(tagging, grows, cls) :: turns, by rw [turn.1]; rfl, by simp [turn.1, turn.2, World.bumpAndTagEach]⟩

/-- The class loop changes the shared state by the turns of the classes that
resolved, in order. -/
theorem filteredLoop_effect (answers : FilteredAnswers) (ci : Nat) (names : List (Option String))
    (collected : Option Handle) (refs : List (Handle × Obj)) (collectedCap : Nat) (s : Native) :
    let r := (filteredLoop jvm answers ci names collected refs collectedCap).run s
    ∃ turns, r.2.world = (s.world.bumpAndTagEach turns).1 ∧ r.2.log = s.log ++ (s.world.bumpAndTagEach turns).2 := by
  induction names generalizing ci collected refs collectedCap s with
  | nil => exact ⟨[], rfl, by simp [filteredLoop, World.bumpAndTagEach]⟩
  | cons element rest ih =>
    have turn := filteredTurn_effect jvm (answers.perClass ci) element collected refs collectedCap s
    dsimp only at turn ⊢
    rw [filteredLoop_cons]
    generalize (filteredTurn jvm (answers.perClass ci) element collected refs collectedCap).run s = p at turn ⊢
    obtain ⟨_ | ⟨collected, refs, collectedCap⟩, s₁⟩ := p
    · exact turns_prepend turn ⟨[], rfl, by simp [World.bumpAndTagEach]⟩
    · exact turns_prepend turn (ih (ci + 1) collected refs collectedCap s₁)

/-- `nativeWalkHeapFiltered` changes the shared state by the turns of the listed
classes that resolved. -/
theorem nativeWalkHeapFiltered_effect (answers : FilteredAnswers)
    (classNamesArray : Option (List (Option String))) (s : Native) :
    let r := (nativeWalkHeapFiltered jvm answers classNamesArray).run s
    ∃ turns, r.2.world = (s.world.bumpAndTagEach turns).1 ∧ r.2.log = s.log ++ (s.world.bumpAndTagEach turns).2 := by
  have unchanged : ∃ turns, s.world = (s.world.bumpAndTagEach turns).1 ∧ s.log = s.log ++ (s.world.bumpAndTagEach turns).2 :=
    ⟨[], rfl, by simp [World.bumpAndTagEach]⟩
  rcases classNamesArray with _ | names
  · exact unchanged
  · by_cases empty : names.length = 0
    · simpa [nativeWalkHeapFiltered, empty] using unchanged
    · obtain ⟨turns, world, log⟩ := filteredLoop_effect jvm answers 0 names none [] 0 s
      simp only [nativeWalkHeapFiltered, empty, if_false, StateT.run_bind, StateT.run_pure, Id.bind_eq] at world log ⊢
      generalize (filteredLoop jvm answers 0 names none [] 0).run s = p at world log ⊢
      obtain ⟨_ | ⟨collected, refs⟩, s₁⟩ := p <;> exact ⟨turns, world, log⟩

theorem nativeResolve_effect (lookupOk : Bool) (tag : Nat) (s : Native) :
    let r := (nativeResolve jvm lookupOk tag).run s
    r.2.world = s.world ∧ r.2.log = s.log := ⟨rfl, rfl⟩

/-- `nativeResolve` answers the first object reported for a nonzero tag. -/
theorem nativeResolve_result (lookupOk : Bool) (tag : Nat) (s : Native) :
    ((nativeResolve jvm lookupOk tag).run s).1 =
      if lookupOk ∧ tag ≠ 0 then (jvm.objectsWithTags s.world.heap [tag]).head? else none := by
  cases lookupOk
  · simp [nativeResolve, Jni.getObjectsWithTags]
  · by_cases zero : tag = 0
    · simp [nativeResolve, Jni.getObjectsWithTags, zero]
    · simp [nativeResolve, Jni.getObjectsWithTags, zero, Ne.symm zero, ← List.head?_map]

theorem nativeAdvanceEpoch_effect (s : Native) :
    nativeAdvanceEpoch.run s = ((), { s with world := s.world.advanceEpoch, log := s.log ++ [.bump] }) := rfl

end Calls

end HeapAgent
