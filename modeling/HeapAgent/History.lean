import HeapAgent.System
import HeapAgent.Pass

/-! The history of the globals as the events record it. Replayed from the
start, the events give `g_epoch` and `g_local_counter` at every point of a run,
and every pass wrote the tags of the counter values `1, 2, ...` of the epoch of
its moment. A tag value can therefore come back only in a later pass of the
same epoch, after a counter reset: the reset of `nativeSnapshotBytes` and
`nativeWalkHeap`, which do not advance the epoch. -/

namespace HeapAgent

/-- `g_epoch` and `g_local_counter` after one more event. -/
def Event.replay : Nat × Nat → Event → Nat × Nat
  | (epoch, counter), .bump => (epoch + 1, counter)
  | (epoch, _), .reset => (epoch, 1)
  | (epoch, counter), .pass ws => (epoch, counter + ws.length)
  | globals, .cleared => globals
  | globals, .failed => globals

/-- The globals after the events. -/
def replayAll (globals : Nat × Nat) (events : List Event) : Nat × Nat := events.foldl Event.replay globals

/-- What an event wrote, seen from the globals before it: a pass runs right
after a reset and writes the tags of the counter values `1, 2, ...`. -/
def Event.Fresh (globals : Nat × Nat) : Event → Prop
  | .pass ws => globals.2 = 1 ∧ ws.map Prod.snd = (List.range' 1 ws.length).map (composeTag globals.1)
  | _ => True

/-- Every event of the list is fresh from the globals the events before it lead to. -/
def Issued : Nat × Nat → List Event → Prop
  | _, [] => True
  | globals, event :: rest => event.Fresh globals ∧ Issued (Event.replay globals event) rest

@[simp] theorem Event.replay_pass (globals : Nat × Nat) (ws : List (Nat × Nat)) :
    Event.replay globals (.pass ws) = (globals.1, globals.2 + ws.length) := rfl

@[simp] theorem replayAll_nil (globals : Nat × Nat) : replayAll globals [] = globals := rfl

@[simp] theorem replayAll_cons (globals : Nat × Nat) (event : Event) (rest : List Event) :
    replayAll globals (event :: rest) = replayAll (Event.replay globals event) rest := rfl

theorem replayAll_append (globals : Nat × Nat) (a b : List Event) :
    replayAll globals (a ++ b) = replayAll (replayAll globals a) b := List.foldl_append _ _ _ _

theorem issued_append (globals : Nat × Nat) (a b : List Event) :
    Issued globals (a ++ b) ↔ Issued globals a ∧ Issued (replayAll globals a) b := by
  induction a generalizing globals with
  | nil => simp [Issued]
  | cons event rest ih => simp [Issued, ih, and_assoc]

/-- The epoch counts the advances. -/
theorem replayAll_epoch (globals : Nat × Nat) (events : List Event) :
    (replayAll globals events).1 = globals.1 + events.count .bump := by
  induction events generalizing globals with
  | nil => rfl
  | cons event rest ih =>
    obtain ⟨epoch, counter⟩ := globals
    cases event <;> simp [Event.replay, ih]
    omega

/-- With no reset, the counter only grows. -/
theorem le_replayAll_counter (globals : Nat × Nat) (events : List Event) (noReset : Event.reset ∉ events) :
    globals.2 ≤ (replayAll globals events).2 := by
  induction events generalizing globals with
  | nil => exact Nat.le_refl _
  | cons event rest ih =>
    obtain ⟨epoch, counter⟩ := globals
    rw [List.mem_cons, not_or] at noReset
    have later := ih (Event.replay (epoch, counter) event) noReset.2
    cases event <;> simp only [Event.replay, replayAll_cons] at later ⊢ <;> first | omega | exact absurd rfl noReset.1

/-- A pass right after a reset is fresh, and leaves the counter past its tags. -/
theorem resetPass_issued (w : World) (klass : Option Nat) (grows : Nat → Bool) :
    Issued (w.epoch, w.counter) [.reset, .pass (w.resetCounter.tagPass klass grows).2.2] ∧
      replayAll (w.epoch, w.counter) [.reset, .pass (w.resetCounter.tagPass klass grows).2.2] =
        ((w.resetCounter.tagPass klass grows).1.epoch, (w.resetCounter.tagPass klass grows).1.counter) := by
  have ⟨tags, counter⟩ := w.resetCounter.tagPass_writes klass grows
  simp only [World.resetCounter_counter, World.resetCounter_epoch] at tags counter
  simp [Issued, Event.Fresh, Event.replay, tags, counter]

namespace World

variable (w : World) (tagging : Bool) (grows : Nat → Bool)

theorem clearAndTag_issued (clear : Bool) (klass : Option (Option Nat)) :
    Issued (w.epoch, w.counter) (w.clearAndTag clear tagging grows klass).2 ∧
      replayAll (w.epoch, w.counter) (w.clearAndTag clear tagging grows klass).2 =
        ((w.clearAndTag clear tagging grows klass).1.epoch, (w.clearAndTag clear tagging grows klass).1.counter) := by
  cases klass with
  | none => cases clear <;> simp [clearAndTag, Issued, Event.Fresh, Event.replay]
  | some klass =>
    cases tagging
    · cases clear <;> simp [clearAndTag, Issued, Event.Fresh, Event.replay]
    · have ⟨fresh, after⟩ := resetPass_issued (if clear then w.clearTags else w) klass grows
      have start : replayAll (w.epoch, w.counter) [if clear then .cleared else .failed] =
          ((if clear then w.clearTags else w).epoch, (if clear then w.clearTags else w).counter) := by
        cases clear <;> rfl
      have events : (w.clearAndTag clear true grows (some klass)).2 = [if clear then .cleared else .failed] ++
          [.reset, .pass ((if clear then w.clearTags else w).resetCounter.tagPass klass grows).2.2] := rfl
      rw [events, issued_append, replayAll_append, start]
      exact ⟨⟨⟨by cases clear <;> trivial, trivial⟩, fresh⟩, after⟩

theorem bumpAndTag_issued (cls : Nat) :
    Issued (w.epoch, w.counter) (w.bumpAndTag tagging grows cls).2 ∧
      replayAll (w.epoch, w.counter) (w.bumpAndTag tagging grows cls).2 =
        ((w.bumpAndTag tagging grows cls).1.epoch, (w.bumpAndTag tagging grows cls).1.counter) := by
  cases tagging
  · simp [bumpAndTag, Issued, Event.Fresh, Event.replay]
  · have ⟨fresh, after⟩ := resetPass_issued w.advanceEpoch (some cls) grows
    have events : (w.bumpAndTag true grows cls).2 =
        [.bump] ++ [.reset, .pass (w.advanceEpoch.resetCounter.tagPass (some cls) grows).2.2] := rfl
    rw [events, issued_append, replayAll_append]
    exact ⟨⟨⟨trivial, trivial⟩, fresh⟩, after⟩

theorem bumpAndTagEach_issued (turns : List (Bool × (Nat → Bool) × Nat)) :
    Issued (w.epoch, w.counter) (w.bumpAndTagEach turns).2 ∧
      replayAll (w.epoch, w.counter) (w.bumpAndTagEach turns).2 =
        ((w.bumpAndTagEach turns).1.epoch, (w.bumpAndTagEach turns).1.counter) := by
  induction turns generalizing w with
  | nil => exact ⟨trivial, rfl⟩
  | cons turn rest ih =>
    obtain ⟨tagging, grows, cls⟩ := turn
    have ⟨first, middle⟩ := w.bumpAndTag_issued tagging grows cls
    have ⟨later, final⟩ := ih (w.bumpAndTag tagging grows cls).1
    simp only [bumpAndTagEach, issued_append, replayAll_append, middle]
    exact ⟨⟨first, later⟩, final⟩

end World

/-- Every call's events are fresh from the globals it starts on, and replay to
the globals it leaves. -/
theorem Call.run_issued (jvm : Jvm) (w : World) (call : Call) :
    Issued (w.epoch, w.counter) (call.run jvm w).log ∧
      replayAll (w.epoch, w.counter) (call.run jvm w).log = ((call.run jvm w).world.epoch, (call.run jvm w).world.counter) := by
  rcases Call.run_cases jvm w call with ⟨_, _, _, _, world, log⟩ | ⟨turns, world, log⟩ | ⟨world, log⟩ <;>
    rw [world, log]
  · exact w.clearAndTag_issued _ _ _ _
  · exact w.bumpAndTagEach_issued turns
  · exact ⟨⟨trivial, trivial⟩, rfl⟩

/-- Along every run the events are fresh from the start, and replay to the
globals reached. -/
theorem Run.issued {jvm : Jvm} {init w : World} {log : List Event} (run : Run jvm init w log) :
    Issued (init.epoch, init.counter) log ∧ replayAll (init.epoch, init.counter) log = (w.epoch, w.counter) := by
  induction run with
  | start => exact ⟨trivial, rfl⟩
  | @call w log call _ ih =>
    have ⟨fresh, after⟩ := Call.run_issued jvm w call
    rw [issued_append, replayAll_append, ih.2]
    exact ⟨⟨ih.1, fresh⟩, after⟩
  | collect _ collects ih => rw [collects.epoch, collects.counter]; exact ih

/-- An event of an issued list is fresh from the globals the events before it
lead to. -/
theorem Issued.at {globals : Nat × Nat} {before after : List Event} {event : Event}
    (issued : Issued globals (before ++ event :: after)) :
    event.Fresh (replayAll globals before) ∧ Issued (Event.replay (replayAll globals before) event) after :=
  ((issued_append globals before (event :: after)).mp issued).2

/-- The tag a pass wrote, from where it stands in the run: the counter value is
one of `1 .. n`. -/
private theorem Issued.written {globals : Nat × Nat} {before after : List Event} {ws : List (Nat × Nat)}
    (issued : Issued globals (before ++ Event.pass ws :: after)) {write : Nat × Nat} (member : write ∈ ws) :
    ∃ k, 1 ≤ k ∧ k ≤ ws.length ∧ write.2 = composeTag (replayAll globals before).1 k := by
  have tags := (issued.at).1.2
  have written : write.2 ∈ ws.map Prod.snd := List.mem_map_of_mem _ member
  rw [tags, List.mem_map] at written
  obtain ⟨k, range, same⟩ := written
  rw [List.mem_range'_1] at range
  exact ⟨k, range.1, by omega, same.symm⟩

/-- On every run with fewer than `2 ^ 32 - 1` epoch advances and passes of
fewer than `2 ^ 30` objects, a pass never writes one tag twice, and a tag value
that two passes write is written by two passes of the same epoch with a counter
reset between them: there is no epoch advance between them, and there is a
reset. -/
theorem tag_reissued_only_after_reset (jvm : Jvm) {heap : List Obj} {w : World} {log : List Event}
    (run : Run jvm (World.init heap) w log) (epochs : log.count .bump < 2 ^ 32 - 1)
    (small : ∀ ws, Event.pass ws ∈ log → ws.length < 2 ^ 30) :
    (∀ ws, Event.pass ws ∈ log → (ws.map Prod.snd).Nodup) ∧
      ∀ (before between after : List Event) (ws₁ ws₂ : List (Nat × Nat)),
        log = before ++ Event.pass ws₁ :: (between ++ Event.pass ws₂ :: after) →
        ∀ p₁ ∈ ws₁, ∀ p₂ ∈ ws₂, p₁.2 = p₂.2 → Event.reset ∈ between ∧ Event.bump ∉ between := by
  have issued := run.issued.1
  simp only [World.init] at issued
  refine ⟨fun ws member => ?_, fun before between after ws₁ ws₂ split p₁ member₁ p₂ member₂ same => ?_⟩
  · obtain ⟨before, after, rfl⟩ := List.append_of_mem member
    rw [(issued.at).1.2]
    exact composeTag_range_nodup _ (by have := small ws member; omega)
  · rw [split] at issued epochs
    obtain ⟨k₁, low₁, high₁, tag₁⟩ := Issued.written issued member₁
    have counter₁ := issued.at.1.1
    have rest := issued.at.2
    obtain ⟨k₂, -, -, tag₂⟩ := Issued.written rest member₂
    have counter₂ := rest.at.1.1
    have epoch₁ := replayAll_epoch (1, 1) before
    have epoch₂ := replayAll_epoch (Event.replay (replayAll (1, 1) before) (.pass ws₁)) between
    have noResetGrows := le_replayAll_counter (Event.replay (replayAll (1, 1) before) (.pass ws₁)) between
    simp only [Event.replay_pass] at tag₂ counter₂ epoch₂ noResetGrows
    generalize replayAll (1, 1) before = g₁ at *
    generalize replayAll (g₁.1, g₁.2 + ws₁.length) between = g₂ at *
    have sameEpoch := (composeTag_inj.mp (tag₁.symm.trans (same.trans tag₂))).1
    simp only [List.count_append, List.count_cons, beq_self_eq_true, if_true] at epochs
    rw [Nat.mod_eq_of_lt (by omega), Nat.mod_eq_of_lt (by omega)] at sameEpoch
    refine ⟨Decidable.by_contra fun noReset => ?_, fun bumped => ?_⟩
    · have := noResetGrows noReset
      omega
    · have := List.count_pos_iff.mpr bumped
      omega

/-- The premises hold on the two snapshots' run, where the tag comes back after
the second snapshot's reset. -/
theorem tag_reissued_only_after_reset_twoSnapshots :
    [Event.cleared, .reset, .pass [(1, composeTag 1 1)], .cleared, .reset, .pass [(2, composeTag 1 1)]].count .bump <
        2 ^ 32 - 1 ∧
      (∀ ws, Event.pass ws ∈ [Event.cleared, .reset, .pass [(1, composeTag 1 1)], .cleared, .reset,
        .pass [(2, composeTag 1 1)]] → ws.length < 2 ^ 30) ∧
      (∀ ws, Event.pass ws ∈ [Event.cleared, .reset, .pass [(1, composeTag 1 1)], .cleared, .reset,
        .pass [(2, composeTag 1 1)]] → (ws.map Prod.snd).Nodup) ∧
      ∀ (before between after : List Event) (ws₁ ws₂ : List (Nat × Nat)),
        [Event.cleared, .reset, .pass [(1, composeTag 1 1)], .cleared, .reset, .pass [(2, composeTag 1 1)]] =
          before ++ Event.pass ws₁ :: (between ++ Event.pass ws₂ :: after) →
        ∀ p₁ ∈ ws₁, ∀ p₂ ∈ ws₂, p₁.2 = p₂.2 → Event.reset ∈ between ∧ Event.bump ∉ between := by
  have epochs : [Event.cleared, .reset, .pass [(1, composeTag 1 1)], .cleared, .reset,
      .pass [(2, composeTag 1 1)]].count .bump < 2 ^ 32 - 1 := by decide
  have small : ∀ ws, Event.pass ws ∈ [Event.cleared, .reset, .pass [(1, composeTag 1 1)], .cleared, .reset,
      .pass [(2, composeTag 1 1)]] → ws.length < 2 ^ 30 := by
    simp only [List.mem_cons, Event.pass.injEq, List.mem_singleton, reduceCtorEq, false_or, List.not_mem_nil,
      or_false]
    rintro ws (rfl | rfl) <;> decide
  have run := twoSnapshots_run
  rw [twoSnapshots_log] at run
  exact ⟨epochs, small, tag_reissued_only_after_reset sampleJvm run epochs small⟩

/-- `nativeSnapshotBytes(X)` then `nativeSnapshotBytes(Y)` in one epoch issue the
tag `(1 << 32) | 1` first to the instance of `X`, then to the instance of `Y`. -/
theorem snapshots_reissue_tag :
    ∃ w log, Run sampleJvm (World.init [⟨1, 1, 0⟩, ⟨2, 2, 0⟩]) w log ∧ log.count .bump < 2 ^ 32 - 1 ∧
      (∀ ws, Event.pass ws ∈ log → ws.length < 2 ^ 30) ∧
      Event.pass [(1, composeTag 1 1)] ∈ log ∧ Event.pass [(2, composeTag 1 1)] ∈ log := by
  refine ⟨_, _, twoSnapshots_run, ?_⟩
  rw [twoSnapshots_log]
  refine ⟨by decide, ?_, by simp, by simp⟩
  simp only [List.mem_cons, Event.pass.injEq, List.mem_singleton, reduceCtorEq, false_or, List.not_mem_nil, or_false]
  rintro ws (rfl | rfl) <;> decide

end HeapAgent
