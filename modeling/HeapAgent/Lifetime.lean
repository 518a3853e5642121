import HeapAgent.Invariant

/-! How long a tag stays good. A client keeps the tags a snapshot or a walk
reported and later hands them to `nativeResolve`. Between two calls that clear
the tags, the globals change only through the filtered walk and
`nativeAdvanceEpoch`, which both advance the epoch before they tag, so no tag
the agent handed out is handed out again and none is rewritten. Until the next
clear, a tag resolves to the object that carried it while the collector leaves
it, and to nothing after: never to another object. A clear in turn forgets every
tag: after it and the counter reset, a state is known from its objects and its
epoch, so a snapshot or a full walk whose clear succeeds does not depend on
what earlier calls left. -/

namespace HeapAgent

/-- What holds of a state `w` reached from `w₀` by calls that neither clear
nor fail: the epoch has not gone back, and every object that carries a tag of
`w₀`'s range, below `w₀`'s globals, is an object of `w₀`, unchanged. -/
structure Since (w₀ w : World) : Prop where
  later : w₀.epoch ≤ w.epoch
  kept : ∀ o ∈ w.heap, o.tag ≠ 0 →
    (tagEpoch o.tag < w₀.epoch ∨ (tagEpoch o.tag = w₀.epoch ∧ tagCounter o.tag < w₀.counter)) →
      o ∈ w₀.heap

namespace Since

variable {w₀ w : World}

theorem refl (w : World) : Since w w := ⟨le_rfl, fun _ member _ _ => member⟩

theorem advanceEpoch (since : Since w₀ w) : Since w₀ w.advanceEpoch :=
  ⟨Nat.le_succ_of_le since.later, since.kept⟩

theorem collect {w' : World} (since : Since w₀ w) (collects : Collects w w') : Since w₀ w' where
  later := collects.epoch ▸ since.later
  kept o member tagged range := (collects.kept o member).elim (since.kept o · tagged range) (absurd · tagged)

/-- A turn of the filtered walk advances the epoch before its pass, so the
pass writes no tag of `w₀`'s range. -/
theorem bumpAndTag (since : Since w₀ w) (grows : Nat → Bool) (cls : Nat) (fits : w.epoch + 1 < 2 ^ 32) :
    Since w₀ (w.bumpAndTag true grows cls).1 where
  later := by rw [World.bumpAndTag_epoch]; exact Nat.le_succ_of_le since.later
  kept o member tagged range := by
    rcases w.advanceEpoch.resetCounter.mem_tagPass (some cls) grows member with old | written
    · exact since.kept o old tagged range
    · obtain ⟨k, -, -, issued⟩ := w.advanceEpoch.resetCounter.mem_tagPass_writes (some cls) grows written
      dsimp only at issued
      simp only [issued, tagEpoch_composeTag, World.resetCounter_epoch, World.advanceEpoch_epoch,
        Nat.mod_eq_of_lt fits] at range
      have := since.later
      omega

theorem bumpAndTagEach (since : Since w₀ w) {turns : List (Bool × (Nat → Bool) × Nat)}
    (clean : Clean w (w.bumpAndTagEach turns).2) : Since w₀ (w.bumpAndTagEach turns).1 := by
  induction turns generalizing w with
  | nil => exact since
  | cons turn rest ih =>
    obtain ⟨tagging, grows, cls⟩ := turn
    obtain ⟨noFailure, fits, -⟩ := clean.left
    cases tagging
    · simp [World.bumpAndTag] at noFailure
    · simp only [World.bumpAndTag_bumps] at fits
      exact ih (since.bumpAndTag grows cls fits) (clean.right (by simp))

/-- A call that neither clears nor fails keeps what holds since `w₀`. -/
theorem call (since : Since w₀ w) (jvm : Jvm) (call : Call) (clean : Clean w (call.run jvm w).log)
    (noClear : Event.cleared ∉ (call.run jvm w).log) : Since w₀ (call.run jvm w).world := by
  rcases Call.run_cases jvm w call with
    ⟨clear, tagging, grows, klass, world, log⟩ | ⟨turns, world, log⟩ | ⟨world, log⟩ <;>
    rw [log] at clean noClear <;> rw [world]
  · have opened : (if clear then Event.cleared else .failed) ∈ (w.clearAndTag clear tagging grows klass).2 := by
      cases klass <;> simp [World.clearAndTag]
    cases clear
    · exact absurd opened clean.no_failure
    · exact absurd opened noClear
  · exact since.bumpAndTagEach clean
  · exact since.advanceEpoch

end Since

/-- Along a run from `w₀` whose calls neither clear nor fail, with the epoch
kept below `2 ^ 32`, what holds since `w₀` holds. -/
theorem Run.since {jvm : Jvm} {w₀ w : World} {log : List Event} (run : Run jvm w₀ w log) (start : Inv w₀)
    (clean : Clean w₀ log) (noClear : Event.cleared ∉ log) : Since w₀ w := by
  induction run with
  | start => exact .refl _
  | @call w log call before ih =>
    have epoch := (before.inv start clean.left).2.1
    exact (ih clean.left fun member => noClear (List.mem_append_left _ member)).call jvm call (clean.right epoch)
      fun member => noClear (List.mem_append_right _ member)
  | collect _ collects ih => exact (ih clean noClear).collect collects

/-- On every run from an untagged heap of distinct objects that meets the
premises of the tagging invariant, take any state `w₁` on it and an object `o`
tagged there. Until a later call clears the tags, `nativeResolve` of `o`'s tag
answers `o` while the collector leaves it, and nothing after: never another
object. -/
theorem resolve_finds_tagged_until_cleared (jvm : Jvm) {heap : List Obj} {w₁ w₂ : World}
    {log₁ log₂ : List Event} (untagged : ∀ o ∈ heap, o.tag = 0) (distinct : (heap.map Obj.ref).Nodup)
    (first : Run jvm (World.init heap) w₁ log₁) (rest : Run jvm w₁ w₂ log₂)
    (noFailure : Event.failed ∉ log₁ ++ log₂) (epochs : (log₁ ++ log₂).count .bump < 2 ^ 32 - 1)
    (small : ∀ ws, Event.pass ws ∈ log₁ ++ log₂ → ws.length < 2 ^ 30)
    (noClear : Event.cleared ∉ log₂) {o : Obj} (member : o ∈ w₁.heap) (tagged : o.tag ≠ 0) :
    ((nativeResolve jvm true o.tag).run (.start w₂)).1 = if o ∈ w₂.heap then some o else none := by
  have clean : Clean (World.init heap) (log₁ ++ log₂) := ⟨noFailure, by simp only [World.init]; omega, small⟩
  obtain ⟨inv₁, epoch₁, -⟩ := first.inv (Inv.init untagged distinct) clean.left
  have inv₂ := (rest.inv inv₁ (clean.right epoch₁)).1
  have since := rest.since inv₁ (clean.right epoch₁) noClear
  have only : ∀ o' ∈ w₂.heap, o'.tag = o.tag → o' = o := fun o' member' same => by
    have old := since.kept o' member' (same ▸ tagged) (same ▸ inv₁.below o member tagged)
    exact List.inj_on_of_nodup_map inv₁.distinct old member (inv₁.unique o' old o member same (same ▸ tagged))
  have resolves := fun o' => @nativeResolve_unique jvm (.start w₂) inv₂ o.tag o'
  split
  · exact (resolves o).mpr ⟨tagged, by assumption, rfl⟩
  · cases found : ((nativeResolve jvm true o.tag).run (.start w₂)).1 with
    | none => rfl
    | some o' =>
      obtain ⟨-, member', same⟩ := (resolves o').mp found
      exact absurd (only o' member' same ▸ member') (by assumption)

/-- A snapshot of `X` tags its instance; after `nativeAdvanceEpoch` its tag
still resolves to it. -/
theorem resolve_finds_tagged_until_cleared_afterAdvance :
    let w₁ := (Call.run sampleJvm (World.init [⟨1, 1, 0⟩]) (.snapshotBytes .succeeding (some "X"))).world
    let log₁ := [] ++ (Call.run sampleJvm (World.init [⟨1, 1, 0⟩]) (.snapshotBytes .succeeding (some "X"))).log
    let w₂ := (Call.run sampleJvm w₁ .advanceEpoch).world
    let log₂ := [] ++ (Call.run sampleJvm w₁ .advanceEpoch).log
    Event.failed ∉ log₁ ++ log₂ ∧ (log₁ ++ log₂).count .bump < 2 ^ 32 - 1 ∧
      (∀ ws, Event.pass ws ∈ log₁ ++ log₂ → ws.length < 2 ^ 30) ∧ Event.cleared ∉ log₂ ∧
      Obj.mk 1 1 (composeTag 1 1) ∈ w₁.heap ∧ composeTag 1 1 ≠ 0 ∧
      ((nativeResolve sampleJvm true (composeTag 1 1)).run (.start w₂)).1 =
        if Obj.mk 1 1 (composeTag 1 1) ∈ w₂.heap then some ⟨1, 1, composeTag 1 1⟩ else none := by
  intro w₁ log₁ w₂ log₂
  have snapshot :
      w₁.heap = [⟨1, 1, composeTag 1 1⟩] ∧ log₁ = [.cleared, .reset, .pass [(1, composeTag 1 1)]] := by
    simp [w₁, log₁, Call.run_snapshotBytes, World.clearAndTag, World.tagPass, iterateThroughHeap, heapTaggingCb,
      tagAdd, admits, sampleJvm, Jvm.inHeapOrder, SnapshotAnswers.succeeding, World.init, World.clearTags, clearTagCb,
      World.resetCounter, Obj.store, TagCollector.empty]
  have advance : log₂ = [.bump] := rfl
  have small : ∀ ws, Event.pass ws ∈ log₁ ++ log₂ → ws.length < 2 ^ 30 := by
    simp only [snapshot.2, advance, List.cons_append, List.nil_append, List.mem_cons, Event.pass.injEq,
      reduceCtorEq, List.mem_singleton, List.not_mem_nil, false_or, or_false]
    rintro ws rfl
    decide
  have member : Obj.mk 1 1 (composeTag 1 1) ∈ w₁.heap := by rw [snapshot.1]; exact List.mem_singleton_self _
  refine ⟨by rw [snapshot.2, advance]; decide, by rw [snapshot.2, advance]; decide, small, by rw [advance]; decide,
    member, by decide, ?_⟩
  have first : Run sampleJvm (World.init [⟨1, 1, 0⟩]) w₁ log₁ :=
    .call (.snapshotBytes .succeeding (some "X")) .start
  have rest : Run sampleJvm w₁ w₂ log₂ := .call .advanceEpoch .start
  have noFailure : Event.failed ∉ log₁ ++ log₂ := by rw [snapshot.2, advance]; decide
  have epochs : (log₁ ++ log₂).count .bump < 2 ^ 32 - 1 := by rw [snapshot.2, advance]; decide
  have noClear : Event.cleared ∉ log₂ := by rw [advance]; decide
  exact @resolve_finds_tagged_until_cleared sampleJvm [⟨1, 1, 0⟩] w₁ w₂ log₁ log₂ (by decide) (by decide) first
    rest noFailure epochs small noClear ⟨1, 1, composeTag 1 1⟩ member (by decide)

/-! What a clear forgets. -/

theorem clearTagCb_heap (heap : List Obj) :
    (iterateThroughHeap none clearTagCb heap ()).1 = heap.map fun o => { o with tag := 0 } := by
  induction heap with
  | nil => rfl
  | cons o rest ih =>
    obtain ⟨ref, cls, tag⟩ := o
    by_cases zero : tag = 0 <;> simp [iterateThroughHeap, clearTagCb, admits, zero, Obj.store, ih]

/-- After the clear and the counter reset, a state is known from its objects'
identities and classes and its epoch. -/
theorem World.clearTags_resetCounter_eq {w w' : World} (shape : w.heap.map Obj.shape = w'.heap.map Obj.shape)
    (epoch : w.epoch = w'.epoch) : w.clearTags.resetCounter = w'.clearTags.resetCounter := by
  have forget : ∀ heap : List Obj, heap.map (fun o => { o with tag := 0 }) =
      (heap.map Obj.shape).map fun p => (⟨p.1, p.2, 0⟩ : Obj) := fun heap => by
    rw [List.map_map]; rfl
  simp only [World.resetCounter, World.clearTags, clearTagCb_heap, forget, shape, epoch]

/-- Whenever `clear_all_tags` succeeds, `nativeSnapshotBytes` and `nativeWalkHeap`
forget what earlier calls left: from two states with the same objects, classes
and order and the same epoch, whatever tags and counter they hold, the call
returns the same value and leaves the same state, log and ledger. -/
theorem clearing_calls_forget_history (jvm : Jvm) {w w' : World}
    (shape : w.heap.map Obj.shape = w'.heap.map Obj.shape) (epoch : w.epoch = w'.epoch) :
    (∀ answers name, answers.clear = true →
      (nativeSnapshotBytes jvm answers (some name)).run (.start w) =
        (nativeSnapshotBytes jvm answers (some name)).run (.start w')) ∧
    ∀ answers, answers.clear = true →
      (nativeWalkHeap jvm answers).run (.start w) = (nativeWalkHeap jvm answers).run (.start w') := by
  have same := World.clearTags_resetCounter_eq shape epoch
  refine ⟨fun answers name cleared => ?_, fun answers cleared => ?_⟩ <;>
    simp only [nativeSnapshotBytes, nativeWalkHeap, StateT.run_bind, clearAllTags_run, resetLocalCounter_run, cleared,
      if_true, Id.bind_eq, Native.start, same]

/-- A state whose instance of `X` an earlier call tagged, with the counter
moved on, and the initial state give the same snapshot of `X`. -/
theorem clearing_calls_forget_history_retagged :
    [Obj.mk 1 1 0].map Obj.shape = [Obj.mk 1 1 (composeTag 1 1)].map Obj.shape ∧
      (World.init [⟨1, 1, 0⟩]).epoch = (⟨[⟨1, 1, composeTag 1 1⟩], 1, 2⟩ : World).epoch ∧
      (nativeSnapshotBytes sampleJvm .succeeding (some "X")).run (.start (World.init [⟨1, 1, 0⟩])) =
        (nativeSnapshotBytes sampleJvm .succeeding (some "X")).run (.start ⟨[⟨1, 1, composeTag 1 1⟩], 1, 2⟩) :=
  ⟨rfl, rfl, (@clearing_calls_forget_history sampleJvm (World.init [⟨1, 1, 0⟩]) ⟨[⟨1, 1, composeTag 1 1⟩], 1, 2⟩
    rfl rfl).1 .succeeding "X" rfl⟩

end HeapAgent
