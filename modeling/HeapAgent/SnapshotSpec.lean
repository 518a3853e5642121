import HeapAgent.System

/-! The name loop and the packing loop of `nativeSnapshotBytes` as the output
sees them. A turn of the name loop resolves the name and adds `12 + len` to
`total`, degrades the entry to an empty name and adds nothing, or stops the
call; the packing loop then writes `12 + lens[i]` bytes for every entry.
`loopOutcome` is that view as a pure function, and the lemmas here show that
the JNI code computes it. -/

namespace HeapAgent

/-- One turn of the name loop for an object named `name`, with an exception
`pending` or not: the name the packing loop reads and what the turn adds to
`total` (`none` when the copy cannot be allocated and the call stops), and
whether an exception is pending after it. -/
def entryOutcome (answers : EntryAnswers) (pending : Bool) (name : List UInt8) : Option (List UInt8 × Nat) × Bool :=
  if !answers.objectClass then (some ([], 0), false)
  else if pending || !answers.getName then (some ([], 0), false)
  else if !answers.nameChars then (some ([], 0), true)
  else if name.length > 0 ∧ !answers.copy then (none, false)
  else (some (name, 12 + name.length), false)

/-- The name loop from entry `i` over objects named `names`: its turns, whether
it ran to the end, and whether an exception is pending after it. -/
def loopOutcome (entry : Nat → EntryAnswers) : Nat → Bool → List (List UInt8) → List (List UInt8 × Nat) × Bool × Bool
  | _, pending, [] => ([], true, pending)
  | i, pending, name :: rest =>
    match entryOutcome (entry i) pending name with
    | (some turn, pending) =>
      let after := loopOutcome entry (i + 1) pending rest
      (turn :: after.1, after.2)
    | (none, pending) => ([], false, pending)

theorem entryOutcome_turn {answers : EntryAnswers} {pending : Bool} {name : List UInt8} {turn : List UInt8 × Nat}
    (taken : (entryOutcome answers pending name).1 = some turn) :
    turn.2 = 12 + turn.1.length ∨ (turn.1 = [] ∧ turn.2 = 0) := by
  unfold entryOutcome at taken
  split_ifs at taken <;> cases taken <;> simp

theorem loopOutcome_turn (entry : Nat → EntryAnswers) (i : Nat) (pending : Bool) (names : List (List UInt8)) :
    ∀ turn ∈ (loopOutcome entry i pending names).1, turn.2 = 12 + turn.1.length ∨ (turn.1 = [] ∧ turn.2 = 0) := by
  induction names generalizing i pending with
  | nil => simp [loopOutcome]
  | cons name rest ih =>
    simp only [loopOutcome]
    cases this : entryOutcome (entry i) pending name with
    | mk taken pending' =>
      cases taken with
      | none => simp
      | some turn =>
        simp only [List.mem_cons, forall_eq_or_imp]
        exact ⟨entryOutcome_turn (by rw [this]), ih (i + 1) pending'⟩

theorem loopOutcome_length (entry : Nat → EntryAnswers) (i : Nat) (pending : Bool) (names : List (List UInt8))
    (complete : (loopOutcome entry i pending names).2.1 = true) :
    (loopOutcome entry i pending names).1.length = names.length := by
  induction names generalizing i pending with
  | nil => rfl
  | cons name rest ih =>
    simp only [loopOutcome] at complete ⊢
    cases this : entryOutcome (entry i) pending name with
    | mk taken pending' =>
      cases taken with
      | none => simp [this] at complete
      | some turn =>
        rw [this] at complete
        simpa using ih (i + 1) pending' complete

theorem loopOutcome_succeeding {entry : Nat → EntryAnswers} (succeeding : ∀ i, entry i = .succeeding) (i : Nat)
    (names : List (List UInt8)) :
    loopOutcome entry i false names = (names.map fun name => (name, 12 + name.length), true, false) := by
  induction names generalizing i with
  | nil => rfl
  | cons name rest ih =>
    by_cases empty : name.length > 0 <;> simp [loopOutcome, entryOutcome, succeeding, empty, ih]

/-- Turns that each count their name or add nothing: their names' entries take
`12` bytes more than the turns count for every turn that adds nothing. -/
private theorem entries_sum {turns : List (List UInt8 × Nat)}
    (shaped : ∀ turn ∈ turns, turn.2 = 12 + turn.1.length ∨ (turn.1 = [] ∧ turn.2 = 0)) :
    (turns.map fun turn => 12 + turn.1.length).sum = (turns.map Prod.snd).sum + 12 * turns.countP (·.2 = 0) := by
  induction turns with
  | nil => rfl
  | cons turn rest ih =>
    simp only [List.map_cons, List.sum_cons, List.countP_cons, ih fun t member => shaped t (.tail _ member)]
    rcases shaped turn (.head _) with counted | ⟨empty, zero⟩
    · simp only [counted, decide_eq_true_eq]
      split_ifs <;> omega
    · simp [empty, zero]
      omega

/-- The name of an object's class as the name loop copies it. -/
def Jvm.nameOf (jvm : Jvm) (obj : Obj) : List UInt8 := (jvm.className obj.cls).bytes

/-- What `nativeSnapshotBytes` returns from the name loop on, for the reported
objects `found`, entering the loop with an exception `pending` or not: the first
`total` bytes the packing loop writes, or `NULL`. -/
def packOutcome (jvm : Jvm) (answers : SnapshotAnswers) (pending : Bool) (found : List Obj) : Option (List UInt8) :=
  let outcome := loopOutcome answers.entry 0 pending (found.map jvm.nameOf)
  let total := 4 + (outcome.1.map Prod.snd).sum
  if outcome.2.1 ∧ total ≤ intMax ∧ answers.buf ∧ answers.byteArray then
    some ((packSnapshot found.length ((found.zip outcome.1).map fun x => (x.1.tag, nameSlot x.2.1))).take total)
  else none

/-- The packing loop writes `12 + lens[i]` bytes for every entry while `total`
counts only the entries whose name was read: it writes `12` bytes past `total`
for every degraded entry. -/
theorem loopOutcome_written (jvm : Jvm) (entry : Nat → EntryAnswers) (pending : Bool) (found : List Obj)
    (complete : (loopOutcome entry 0 pending (found.map jvm.nameOf)).2.1 = true) :
    let turns := (loopOutcome entry 0 pending (found.map jvm.nameOf)).1
    (packSnapshot found.length ((found.zip turns).map fun x => (x.1.tag, nameSlot x.2.1))).length =
      4 + (turns.map Prod.snd).sum + 12 * turns.countP (·.2 = 0) := by
  intro turns
  have same : turns.length ≤ found.length := by
    simp [turns, loopOutcome_length entry 0 pending _ complete]
  have length := packSnapshot_length found.length ((found.zip turns).map fun x => (x.1.tag, x.2.1))
  simp only [List.map_map, Function.comp_def] at length
  have zipped : ((found.zip turns).map fun x => 12 + x.2.1.length) = turns.map fun turn => 12 + turn.1.length := by
    simpa [Function.comp_def] using congrArg (List.map fun turn => 12 + turn.1.length) (List.map_snd_zip found turns same)
  rw [length, zipped, entries_sum (loopOutcome_turn entry 0 pending _), Nat.add_assoc]

/-- One instance whose class name cannot be read: 16 bytes written, 12 past `total`. -/
theorem loopOutcome_written_unreadable :
    (loopOutcome (fun _ => ⟨true, true, false, true⟩) 0 false ([Obj.mk 1 1 0].map sampleJvm.nameOf)).2.1 = true ∧
      let turns := (loopOutcome (fun _ => ⟨true, true, false, true⟩) 0 false ([Obj.mk 1 1 0].map sampleJvm.nameOf)).1
      (packSnapshot [Obj.mk 1 1 0].length (([Obj.mk 1 1 0].zip turns).map fun x => (x.1.tag, nameSlot x.2.1))).length =
        4 + (turns.map Prod.snd).sum + 12 * turns.countP (·.2 = 0) :=
  ⟨by decide, loopOutcome_written sampleJvm _ false _ (by decide)⟩

theorem packOutcome_succeeding (jvm : Jvm) (found : List Obj) :
    packOutcome jvm .succeeding false found =
      if 4 + (found.map fun o => 12 + (jvm.nameOf o).length).sum ≤ intMax then
        some (packSnapshot found.length (found.map fun o => (o.tag, nameSlot (jvm.nameOf o))))
      else none := by
  have zipped := List.zip_map' id (fun o => (jvm.nameOf o, 12 + (jvm.nameOf o).length)) found
  have length := packSnapshot_length found.length (found.map fun o => (o.tag, jvm.nameOf o))
  simp only [List.map_id, List.map_map, Function.comp_def] at zipped length
  simp only [packOutcome, loopOutcome_succeeding SnapshotAnswers.succeeding_entry, List.map_map, Function.comp_def,
    zipped, id, List.length_map, true_and, SnapshotAnswers.succeeding_buf, SnapshotAnswers.succeeding_byteArray, and_true]
  rw [← length, List.take_length]

namespace Jni

variable (jvm : Jvm)

theorem nameEntry_outcome (answers : EntryAnswers) (obj : Handle × Obj) (j : Jni) :
    (((nameEntry jvm answers obj).run j).1.map (fun turn => (turn.1.view, turn.2)),
        ((nameEntry jvm answers obj).run j).2.pending) =
      ((entryOutcome answers j.pending (jvm.nameOf obj.2)).1.map (fun turn => (nameSlot turn.1, turn.2)),
        (entryOutcome answers j.pending (jvm.nameOf obj.2)).2) := by
  obtain ⟨objectClass, getName, nameChars, copy⟩ := answers
  unfold Jvm.nameOf
  simp only [Slot.view, Slot.empty, nameEntry, getObjectClass, newLocalRef, getStringUTFChars, malloc,
    ClassName.strlen_eq, nameSlot, entryOutcome, Bool.false_eq_true, ↓reduceIte, bind_pure_comp, gt_iff_lt, pure_bind,
    Nat.reduceAdd, and_true, true_and, false_and, and_false, and_self, bind_map_left, reduceCtorEq, StateT.run_bind,
    StateT.run_map, acquire_run, raise_run, exceptionCheck_run, exceptionClear_run, Id.bind_eq, Id.map_eq,
    Option.map_some', Option.map_none', deleteLocalRef_pending, releaseStringUTFChars_pending, Bool.not_true,
    Bool.not_false, Bool.or_true, Bool.or_false, Bool.or_self, List.length_nil, lt_self_iff_false]
  cases objectClass
  · cases pending : j.pending <;> simp [pending]
  cases pending : j.pending
  · cases getName
    · simp [pending]
    cases nameChars
    · simp [pending]
    by_cases empty : 0 < (jvm.className obj.2.cls).bytes.length <;> cases copy <;> simp [pending, empty]
  · cases getName <;> simp [pending]

theorem nameLoop_outcome (entry : Nat → EntryAnswers) (i : Nat) (found : List (Handle × Obj)) (slots : List Slot)
    (total : Nat) (j : Jni) :
    let r := (nameLoop jvm entry i found slots total).run j
    let outcome := loopOutcome entry i j.pending ((found.map Prod.snd).map jvm.nameOf)
    r.1.1.map Slot.view = slots.map Slot.view ++ outcome.1.map (fun turn => nameSlot turn.1) ∧
      r.1.2.1 = total + (outcome.1.map Prod.snd).sum ∧ r.1.2.2 = outcome.2.1 ∧ r.2.pending = outcome.2.2 := by
  induction found generalizing i slots total j with
  | nil => simp [nameLoop, loopOutcome]
  | cons obj rest ih =>
    have turn := nameEntry_outcome jvm (entry i) obj j
    simp only [nameLoop, loopOutcome, StateT.run_bind, List.map_cons, Id.bind_eq] at turn ⊢
    generalize (nameEntry jvm (entry i) obj).run j = p at turn ⊢
    generalize entryOutcome (entry i) j.pending (jvm.nameOf obj.2) = e at turn ⊢
    obtain ⟨_ | ⟨slot, size⟩, j₁⟩ := p <;> obtain ⟨_ | ⟨name, size'⟩, pending⟩ := e <;>
      simp only [Option.map_none', Option.map_some', Prod.mk.injEq, reduceCtorEq, false_and, Option.some.injEq] at turn
    · simpa using turn
    · obtain ⟨⟨view, rfl⟩, rfl⟩ := turn
      obtain ⟨views, sum, complete, calm⟩ := ih (i + 1) (slots ++ [slot]) (total + size) j₁
      refine ⟨by simp [views, view], by simp [sum, Nat.add_assoc], complete, calm⟩

theorem packed_eq (found : List (Handle × Obj)) (slots : List Slot) :
    packed found slots = (found.zip (slots.map Slot.view)).map fun x => (x.1.2.tag, x.2) := by
  simp only [packed, List.zip_map_right, List.map_map]
  rfl

theorem packNames_outcome (answers : SnapshotAnswers) (chars : Handle) (colTags : Option Handle) (lookup : Lookup)
    (names lens : Option Handle) (j : Jni) :
    ((packNames jvm answers chars colTags lookup names lens).run j).1 =
      packOutcome jvm answers j.pending (lookup.found.map Prod.snd) := by
  obtain ⟨views, sum, complete, -⟩ := nameLoop_outcome jvm answers.entry 0 lookup.found [] 4 j
  simp only [packNames, StateT.run_bind, Id.bind_eq]
  generalize (nameLoop jvm answers.entry 0 lookup.found [] 4).run j = p at views sum complete ⊢
  obtain ⟨⟨slots, total, done⟩, j₁⟩ := p
  dsimp only at views sum complete
  subst sum complete
  unfold packOutcome
  generalize loopOutcome answers.entry 0 j.pending ((lookup.found.map Prod.snd).map jvm.nameOf) = outcome at views ⊢
  obtain ⟨turns, done, pending⟩ := outcome
  cases done
  · simp
  by_cases big : 4 + (turns.map Prod.snd).sum > intMax
  · simp [big, Nat.not_le_of_gt big]
  have fits : 4 + (turns.map Prod.snd).sum ≤ intMax := Nat.le_of_not_gt big
  cases buf : answers.buf <;> cases byteArray : answers.byteArray <;>
    simp [big, fits, buf, byteArray, malloc, newLocalRef, packed_eq, views, List.zip_map_right, List.zip_map_left,
      Function.comp_def]

theorem snapshotTail_outcome (answers : SnapshotAnswers) (chars : Handle) (colTags : Option Handle) (lookup : Lookup)
    (j : Jni) :
    ((snapshotTail jvm answers chars colTags lookup).run j).1 =
      if jvm.findClass "java/lang/Class" = none ∨ answers.getName = false ∨
          (lookup.found.map Prod.snd ≠ [] ∧ (answers.names = false ∨ answers.lens = false)) then none
      else packOutcome jvm answers j.pending (lookup.found.map Prod.snd) := by
  cases classClass : jvm.findClass "java/lang/Class"
  · simp [snapshotTail, findClass, classClass]
  cases getName : answers.getName
  · simp [snapshotTail, findClass, classClass, getMethodID, getName]
  by_cases empty : lookup.found = []
  · simp [snapshotTail, findClass, classClass, getMethodID, getName, empty, packNames_outcome]
  have present : 0 < lookup.found.length := List.length_pos.mpr empty
  cases names : answers.names <;> cases lens : answers.lens <;>
    simp [snapshotTail, findClass, classClass, getMethodID, getName, names, lens, empty, present, malloc,
      packNames_outcome]

end Jni

/-- The objects `GetObjectsWithTags` reports to `nativeSnapshotBytes` over class
`cls` in a call started on `w`: none when the pass stored no tag or the lookup
fails. -/
def snapshotFound (jvm : Jvm) (answers : SnapshotAnswers) (w : World) (cls : Nat) : List Obj :=
  let pass := (if answers.clear then w.clearTags else w).resetCounter.tagPass (some cls) answers.grows
  if answers.tagging ∧ 0 < pass.2.1.count ∧ answers.lookup ∧ 0 ∉ pass.2.1.tags then
    jvm.objectsWithTags pass.1.heap pass.2.1.tags
  else []

/-- `nativeSnapshotBytes(name)`: `NULL` when the name cannot be read or does not
resolve, else what the tail makes of the objects the lookup reports. -/
theorem nativeSnapshotBytes_result (jvm : Jvm) (answers : SnapshotAnswers) (name : String) (s : Native)
    (calm : s.jni.pending = false) :
    ((nativeSnapshotBytes jvm answers (some name)).run s).1 =
      match if answers.classChars then jvm.findClass name else none with
      | none => none
      | some cls =>
        if jvm.findClass "java/lang/Class" = none ∨ answers.getName = false ∨
            (snapshotFound jvm answers s.world cls ≠ [] ∧ (answers.names = false ∨ answers.lens = false)) then none
        else packOutcome jvm answers false (snapshotFound jvm answers s.world cls) := by
  cases chars : answers.classChars
  · simp [nativeSnapshotBytes, chars, Jni.getStringUTFChars]
  cases found : jvm.findClass name with
  | none => simp [nativeSnapshotBytes, chars, found, Jni.getStringUTFChars, Jni.findClass]
  | some cls =>
    simp [nativeSnapshotBytes, chars, found, Jni.getStringUTFChars, Jni.findClass, snapshotFound]
    generalize (if answers.clear then s.world.clearTags else s.world).resetCounter.tagPass (some cls) answers.grows = pass
    cases tagging : answers.tagging
    · simp [tagging, calm, Jni.snapshotTail_outcome, TagCollector.empty, Lookup.none, apply_ite Jni.pending]
    by_cases count : 0 < pass.2.1.count <;> cases lookup : answers.lookup <;> by_cases zero : 0 ∈ pass.2.1.tags <;>
      simp [tagging, count, lookup, zero, calm, Jni.snapshotTail_outcome, Jni.getObjectsWithTags, Lookup.none,
        apply_ite Jni.pending]

/-- Every runtime call succeeds except `GetStringUTFChars` on each class name. -/
def unreadableNames : SnapshotAnswers :=
  { SnapshotAnswers.succeeding with entry := fun _ => ⟨true, true, false, true⟩ }

/-- `nativeSnapshotBytes(X)` on one instance of `X` whose name cannot be read:
`total` stays 4 while the packing loop writes 16 bytes into the 4-byte buffer,
and the array returned, the first 4 of them, declares an entry it does not hold. -/
theorem nativeSnapshotBytes_unreadableName_overflow :
    ((nativeSnapshotBytes sampleJvm unreadableNames (some "X")).run (.start (World.init [⟨1, 1, 0⟩]))).1 =
        some ((packSnapshot 1 [(composeTag 1 1, nameSlot [])]).take 4) ∧
      (packSnapshot 1 [(composeTag 1 1, nameSlot [])]).length = 16 ∧
      decodeSnapshot ((packSnapshot 1 [(composeTag 1 1, nameSlot [])]).take 4) = none := by
  refine ⟨?_, rfl, by simp [packSnapshot, be32, decodeSnapshot, readBE, decodeEntries, fromBE]⟩
  rw [nativeSnapshotBytes_result _ _ _ _ rfl]
  have tagged : composeTag 1 1 ≠ 0 := composeTag_ne_zero 1 (by decide)
  simp [unreadableNames, sampleJvm, Jvm.inHeapOrder, snapshotFound, packOutcome, loopOutcome, entryOutcome, World.init,
    Native.start, World.clearTags, World.resetCounter, World.tagPass, iterateThroughHeap, clearTagCb, heapTaggingCb,
    tagAdd, admits, Obj.store, TagCollector.empty, Jvm.nameOf, intMax, tagged, Ne.symm tagged]

end HeapAgent
