import HeapAgent.Snapshot
import HeapAgent.Ledger

/-! Every exit of `nativeSnapshotBytes` frees what the call took: each turn of
the name loop gives back the reference it was handed and keeps only its name
copy, and each of the five exits after the loop frees the copies, `names`,
`lens`, the JVMTI arrays, the tag buffer and the class name's characters. -/

namespace HeapAgent

namespace Jni

variable (jvm : Jvm)

/-- One turn of the name loop gives back the reference it was handed and keeps
only the name copy it returns. -/
theorem nameEntry_frame (answers : EntryAnswers) (obj : Handle × Obj) {j : Jni} (sound : j.Sound)
    (held : obj.1 ∈ j.held) (unnamed : obj.1 ∉ j.names) :
    Frame j ((nameEntry jvm answers obj).run j).2 (· = obj.1)
      (fun h => ((nameEntry jvm answers obj).run j).1.bind (·.1.copy) = some h) := by
  obtain ⟨⟨id, kind⟩, o⟩ := obj
  dsimp only at held unnamed ⊢
  have lt : id < j.fresh := sound.below _ held
  have away : ∀ k, j.fresh + k ≠ id := fun k => by omega
  generalize run : (nameEntry jvm answers (⟨id, kind⟩, o)).run j = result
  simp only [nameEntry, getObjectClass, newLocalRef, getStringUTFChars, malloc, deleteLocalRef, releaseStringUTFChars,
    ClassName.strlen_eq, bind_pure_comp, gt_iff_lt, pure_bind, bind_map_left, StateT.run_bind, StateT.run_map,
    Id.bind_eq, Id.map_eq] at run
  rcases answers with ⟨_ | _, _ | _, nameChars, copy⟩
  -- no class, or no name reference: what was taken is given back
  iterate 3
    cases p : j.pending <;> simp only [StateT.run_pure, Id.pure_eq, StateT.run_bind, StateT.run_map, Id.bind_eq,
      Id.map_eq, bind_map_left, exceptionCheck_run, exceptionClear_run, raise_run, acquire_run, release_run, ↓reduceIte,
      Bool.false_eq_true, List.mem_cons, List.erase_cons_head, List.erase_cons_tail, Handle.mk.injEq,
      p, held, true_or] at run <;> subst run <;>
      exact Frame.of_erase sound held unnamed [] (by simp) (by simp) rfl rfl (by dsimp only; omega) rfl
        (by simp [Slot.empty])
  cases p : j.pending
  rotate_left
  · -- the stale exception: the class's name reference stays with the JVM
    simp only [StateT.run_pure, Id.pure_eq, StateT.run_bind, StateT.run_map, Id.bind_eq, Id.map_eq,
      bind_map_left, exceptionCheck_run, exceptionClear_run, raise_run, acquire_run, release_run, ↓reduceIte,
      Bool.false_eq_true, List.mem_cons, List.erase_cons_head, List.erase_cons_tail, Handle.mk.injEq,
      p, held, away, add_right_eq_self, one_ne_zero, beq_iff_eq, not_false_eq_true, true_or, or_true, false_and] at run
    subst run
    exact Frame.of_erase sound held unnamed [⟨j.fresh + 1, .localRef⟩] (by simp) (by simp) rfl rfl
      (by dsimp only; omega) rfl (by simp [Slot.empty, Kind.native])
  cases nameChars
  · simp only [StateT.run_pure, Id.pure_eq, StateT.run_bind, StateT.run_map, Id.bind_eq, Id.map_eq,
      bind_map_left, exceptionCheck_run, exceptionClear_run, raise_run, acquire_run, release_run, ↓reduceIte,
      Bool.false_eq_true, List.mem_cons, List.erase_cons_head, List.erase_cons_tail, Handle.mk.injEq,
      p, held, true_or] at run
    subst run
    exact Frame.of_erase sound held unnamed [] (by simp) (by simp) rfl rfl (by dsimp only; omega) rfl
      (by simp [Slot.empty])
  by_cases empty : 0 < (jvm.className o.cls).bytes.length
  · cases copy <;> simp only [StateT.run_pure, Id.pure_eq, StateT.run_bind, StateT.run_map, Id.bind_eq, Id.map_eq,
      bind_map_left, exceptionCheck_run, exceptionClear_run, raise_run, acquire_run, release_run, ↓reduceIte,
      Bool.false_eq_true, List.mem_cons, List.erase_cons_head, List.erase_cons_tail, Handle.mk.injEq,
      p, held, away, empty, Nat.add_assoc, add_right_inj, add_right_eq_self, beq_iff_eq, not_false_eq_true,
      reduceCtorEq, true_or, or_true, true_and, false_and] at run <;> subst run
    · exact Frame.of_erase sound held unnamed [] (by simp) (by simp) rfl rfl (by dsimp only; omega) rfl (by simp)
    · exact Frame.of_erase sound held unnamed [⟨j.fresh + 3, .buffer⟩] (by simp) (by simp) rfl rfl
        (by dsimp only; omega) rfl fun h => by
          simp only [List.mem_singleton, Option.some_bind, Option.some.injEq]
          constructor
          · rintro ⟨rfl, -⟩; rfl
          · rintro rfl; exact ⟨rfl, rfl⟩
  · simp only [StateT.run_pure, Id.pure_eq, StateT.run_bind, StateT.run_map, Id.bind_eq, Id.map_eq,
      bind_map_left, exceptionCheck_run, exceptionClear_run, raise_run, acquire_run, release_run, ↓reduceIte,
      Bool.false_eq_true, List.mem_cons, List.erase_cons_head, List.erase_cons_tail, Handle.mk.injEq,
      p, held, away, empty, true_or, and_true] at run
    subst run
    exact Frame.of_erase sound held unnamed [] (by simp) (by simp) rfl rfl (by dsimp only; omega) rfl (by simp)

/-- The name loop gives back the references of the turns it ran, `n` of them,
all when it ran to the end, and keeps exactly the name copies of the slots it
added. -/
theorem nameLoop_frame (entry : Nat → EntryAnswers) (i : Nat) (found : List (Handle × Obj)) (slots : List Slot)
    (total : Nat) {j : Jni} (sound : j.Sound) {hs : List Handle} (owns : Owns j (found.map Prod.fst ++ hs)) :
    ∃ n added, ((nameLoop jvm entry i found slots total).run j).1.1 = slots ++ added ∧
      (((nameLoop jvm entry i found slots total).run j).1.2.2 = true → n = found.length) ∧
      Frame j ((nameLoop jvm entry i found slots total).run j).2 (· ∈ (found.take n).map Prod.fst)
        (· ∈ added.filterMap Slot.copy) ∧
      Owns ((nameLoop jvm entry i found slots total).run j).2 (added.filterMap Slot.copy ++ hs) := by
  induction found generalizing i slots total j hs with
  | nil => exact ⟨0, [], by simp [nameLoop], by simp [nameLoop], (Frame.refl sound).congr (by simp) (by simp), owns⟩
  | cons obj rest ih =>
    have first := nameEntry_frame jvm (entry i) obj sound (owns.held _ (.head _)) (owns.unnamed _ (.head _))
    have fresh := List.nodup_cons.mp owns.nodup
    have others : Owns j (rest.map Prod.fst ++ hs) := owns.tail
    have left := others.frame first fun h member same => fresh.1 (same ▸ member)
    simp only [nameLoop, StateT.run_bind, Id.bind_eq]
    generalize (nameEntry jvm (entry i) obj).run j = turn at first left
    obtain ⟨_ | ⟨slot, size⟩, j₁⟩ := turn
    · exact ⟨1, [], by simp, by simp, first.congr (by simp) (by simp), left.right⟩
    have copy : Owns j₁ (slot.copy.toList ++ (rest.map Prod.fst ++ hs)) :=
      others.keep sound first (fun h member same => fresh.1 (same ▸ member)) (by simp) (by cases slot.copy <;> simp)
    obtain ⟨n, added, grown, complete, frame, owned⟩ :=
      ih (i + 1) (slots ++ [slot]) (total + size) first.sound (copy.perm (List.perm_append_comm_assoc _ _ _))
    refine ⟨n + 1, slot :: added, by simp [grown], fun done => by simp [complete done], ?_, ?_⟩
    · refine (first.trans sound frame).congr (by simp) fun h => ?_
      cases c : slot.copy with
      | none => simp [c]
      | some block =>
        have young : block ∉ (rest.map Prod.fst).take n := fun member =>
          others.not_kept sound first (by simp [c]) (List.mem_append_left _ (List.mem_of_mem_take member))
        by_cases same : h = block
        · subst same; simp [c, young]
        · simp [c, same, Ne.symm same]
    · cases c : slot.copy with
      | none => simpa [c] using owned
      | some block =>
        simp only [c, Option.toList_some, List.singleton_append] at owned
        simpa [c] using owned.perm List.perm_middle

theorem freeCopies_eq (slots : List Slot) : freeCopies slots = (slots.filterMap Slot.copy).forM release := by
  induction slots with
  | nil => rfl
  | cons slot rest ih => cases c : slot.copy <;> simp [freeCopies, free_eq, c, ih]

theorem releaseLookup_eq (lookup : Lookup) (colTags : Option Handle) (chars : Handle) :
    releaseLookup lookup colTags chars = (lookup.arrays ++ colTags.toList ++ [chars]).forM release := by
  simp [releaseLookup, Lookup.arrays, deallocate_eq, free_eq, List.forM_append, releaseStringUTFChars]

theorem packNames_frame (answers : SnapshotAnswers) (chars : Handle) (colTags : Option Handle) (lookup : Lookup)
    (names lens : Option Handle) {j : Jni} (sound : j.Sound)
    (owns : Owns j (lookup.refs ++ (names.toList ++ lens.toList ++ lookup.arrays ++ colTags.toList ++ [chars]))) :
    ∃ n, Frame j ((packNames jvm answers chars colTags lookup names lens).run j).2
      (fun h => h ∈ names.toList ++ lens.toList ++ lookup.arrays ++ colTags.toList ++ [chars] ∨ h ∈ lookup.refs.take n)
      (fun _ => False) := by
  obtain ⟨n, added, grown, -, loop, owned⟩ := nameLoop_frame jvm answers.entry 0 lookup.found [] 4 sound owns
  refine ⟨n, ?_⟩
  simp only [packNames, freeCopies_eq, free_eq, releaseLookup_eq, forM_release_seq, StateT.run_bind, Id.bind_eq]
  generalize (nameLoop jvm answers.entry 0 lookup.found [] 4).run j = p at grown loop owned ⊢
  obtain ⟨⟨slots, total, done⟩, j₁⟩ := p
  simp only [List.nil_append] at grown
  subst grown
  simp only [List.append_assoc] at owned ⊢
  have close : ∀ {j₂ : Jni} (extra : List Handle), Frame j₁ j₂ (fun _ => False) (· ∈ extra) →
      Owns j₂ (extra ++ (slots.filterMap Slot.copy ++
        (names.toList ++ (lens.toList ++ (lookup.arrays ++ (colTags.toList ++ [chars])))))) →
      Frame j (((extra ++ (slots.filterMap Slot.copy ++
        (names.toList ++ (lens.toList ++ (lookup.arrays ++ (colTags.toList ++ [chars])))))).forM release).run j₂).2
        (fun h => h ∈ names.toList ++ (lens.toList ++ (lookup.arrays ++ (colTags.toList ++ [chars]))) ∨
          h ∈ lookup.refs.take n) (fun _ => False) := by
    intro j₂ extra middle left
    rw [← List.append_assoc] at left ⊢
    exact ((loop.seq sound middle).close sound left).congr (by simp [Lookup.refs, List.map_take, or_comm]) (by simp)
  have printed := checkPrint_frame loop.sound
  have unchanged := owned.frame printed fun _ _ => id
  cases done
  · exact close [] printed.nil unchanged
  by_cases over : total > intMax
  · simp only [over, Bool.not_true, Bool.false_eq_true, ↓reduceIte, StateT.run_bind, Id.bind_eq]
    exact close [] printed.nil unchanged
  simp only [over, Bool.not_true, Bool.false_eq_true, ↓reduceIte, StateT.run_bind, Id.bind_eq, StateT.run_pure, Id.pure_eq]
  cases buf : answers.buf
  · exact close [] printed.nil unchanged
  generalize answers.byteArray = ok
  have alloc := acquire_frame loop.sound .buffer
  have middle : Frame j₁ _ (fun _ => False) (· ∈ [⟨j₁.fresh, .buffer⟩]) :=
    (alloc.trans loop.sound (newLocalRef_frame alloc.sound ok)).congr (by simp) (by simp [Kind.native])
  have left : Owns _ ([⟨j₁.fresh, .buffer⟩] ++ _) := owned.keep loop.sound middle (by simp) (by simp) (List.nodup_singleton _)
  cases ok
  · have refused := checkPrint_frame middle.sound
    exact close [⟨j₁.fresh, .buffer⟩] ((middle.trans loop.sound refused).congr (by simp) (by simp))
      (left.frame refused fun _ _ => id)
  · exact close [⟨j₁.fresh, .buffer⟩] middle left

theorem snapshotTail_frame (answers : SnapshotAnswers) (chars : Handle) (colTags : Option Handle) (lookup : Lookup)
    {j : Jni} (sound : j.Sound) (owns : Owns j (lookup.refs ++ (lookup.arrays ++ colTags.toList ++ [chars]))) :
    ∃ n, Frame j ((snapshotTail jvm answers chars colTags lookup).run j).2
      (fun h => h ∈ lookup.arrays ++ colTags.toList ++ [chars] ∨ h ∈ lookup.refs.take n) (fun _ => False) := by
  have cls := findClass_frame sound jvm "java/lang/Class"
  simp only [snapshotTail, releaseLookup_eq, free_eq, forM_release_seq, StateT.run_bind, Id.bind_eq]
  generalize (findClass jvm "java/lang/Class").run j = p at cls ⊢
  have base := owns.right
  obtain ⟨_ | _, j₁⟩ := p
  · exact ⟨0, (Frame.release_owned sound cls (base.frame cls (by simp))).congr (by simp) (by simp)⟩
  have got := getMethodID_frame cls.sound answers.getName
  have idle := cls.trans sound got
  simp only [StateT.run_bind, Id.bind_eq]
  generalize (getMethodID answers.getName).run j₁ = q at got idle ⊢
  obtain ⟨_ | _, j₂⟩ := q
  · exact ⟨0, (Frame.release_owned sound (idle.congr (by simp) (by simp)) (base.frame idle (by simp))).congr
      (by simp) (by simp)⟩
  have quiet : Frame j j₂ (fun _ => False) (· ∈ []) := idle.congr (by simp) (by simp)
  have held : Owns j₂ (lookup.refs ++ (lookup.arrays ++ colTags.toList ++ [chars])) := owns.frame idle (by simp)
  simp only [Bool.not_true, Bool.false_eq_true, ↓reduceIte, StateT.run_bind, Id.bind_eq, StateT.run_pure, Id.pure_eq]
  by_cases some : lookup.found.length > 0
  · simp only [some, ↓reduceIte, true_and, StateT.run_bind, Id.bind_eq]
    have names := malloc_frame quiet.sound answers.names
    have lens := malloc_frame names.sound answers.lens
    have middle := (quiet.seq sound names).seq sound lens
    have owned := (held.keep quiet.sound names (fun _ _ => id) (fun _ => id) (Option.toList_nodup _)).keep names.sound
      lens (fun _ _ => id) (fun _ => id) (Option.toList_nodup _)
    generalize (malloc answers.names).run j₂ = pn at names lens middle owned ⊢
    obtain ⟨n, jn⟩ := pn
    generalize (malloc answers.lens).run jn = pl at lens middle owned ⊢
    obtain ⟨l, jl⟩ := pl
    dsimp only at middle owned ⊢
    have taken : Frame j jl (fun _ => False) (· ∈ n.toList ++ l.toList) := middle.congr (by simp) (by simp [or_comm])
    split
    · have printed := checkPrint_frame taken.sound
      have told : Frame j (checkPrint.run jl).2 (fun _ => False) (· ∈ n.toList ++ l.toList) :=
        (taken.trans sound printed).congr (by simp) (by simp)
      rw [← List.append_assoc]
      exact ⟨0, (told.close sound ((owned.frame printed fun _ _ => id).sub fun h => by
        simp only [List.count_append]; omega)).congr (by simp) (by simp)⟩
    · obtain ⟨k, frame⟩ := packNames_frame jvm answers chars colTags lookup n l taken.sound
        (owned.sub fun h => by simp only [List.count_append]; omega)
      have settled : Frame jl _ (fun h => h ∈ n.toList ++ l.toList ∨
          (h ∈ lookup.arrays ++ colTags.toList ++ [chars] ∨ h ∈ lookup.refs.take k)) (fun _ => False) :=
        frame.congr (by simp [or_assoc]) fun _ => Iff.rfl
      exact ⟨k, (taken.settle sound settled).congr (by simp) (by simp)⟩
  · simp only [some, ↓reduceIte, false_and, StateT.run_bind, Id.bind_eq, StateT.run_pure, Id.pure_eq]
    obtain ⟨k, frame⟩ := packNames_frame jvm answers chars colTags lookup none none quiet.sound (by simpa using held)
    exact ⟨k, (quiet.trans sound frame).congr (by simp) (by simp)⟩
end Jni

open Jni

/-- Whatever the runtime answers, `nativeSnapshotBytes` returns holding no
native handle it took and having given back only handles it held. -/
theorem nativeSnapshotBytes_frame (jvm : Jvm) (answers : SnapshotAnswers) (jClassName : Option String) {s : Native}
    (sound : s.jni.Sound) :
    ∃ released, Frame s.jni ((nativeSnapshotBytes jvm answers jClassName).run s).2.jni released (fun _ => False) := by
  cases jClassName with
  | none => exact ⟨_, Frame.refl sound⟩
  | some name =>
    simp only [nativeSnapshotBytes, StateT.run_bind, clearAllTags_run, resetLocalCounter_run, liftJni_run, Id.bind_eq]
    have cleared : Frame s.jni (if answers.clear then s.jni else (checkPrint.run s.jni).2) (fun _ => False)
        (fun _ => False) := by
      split
      · exact .refl sound
      · exact checkPrint_frame sound
    generalize (if answers.clear then s.jni else (checkPrint.run s.jni).2) = j₀ at cleared ⊢
    have exit : ∀ {j' : Jni} {r : Handle → Prop}, Frame j₀ j' r (fun _ => False) →
        ∃ released, Frame s.jni j' released (fun _ => False) :=
      fun frame => ⟨_, (cleared.trans sound frame).congr (fun _ _ => Iff.rfl) (by simp)⟩
    replace sound := cleared.sound
    have chars := getStringUTFChars_frame sound answers.classChars
    generalize (getStringUTFChars answers.classChars).run j₀ = pc at chars ⊢
    obtain ⟨_ | c, j₁⟩ := pc
    · exact exit (chars.congr (fun _ _ => Iff.rfl) (by simp))
    have owned : Owns j₁ [c] := (Owns.nil j₀).keep sound chars (fun _ no => absurd no (List.not_mem_nil _))
      (fun _ => id) (List.nodup_singleton c)
    simp only [StateT.run_bind, liftJni_run, Id.bind_eq]
    have cls := findClass_frame chars.sound jvm name
    have taken := chars.seq sound cls.nil
    replace owned := owned.frame cls fun _ _ => id
    generalize (findClass jvm name).run j₁ = pf at cls taken owned ⊢
    obtain ⟨_ | ⟨ref, k⟩, j₂⟩ := pf
    · have gone : Frame j₂ _ (fun h => h ∈ [] ++ [c] ∨ False) (fun _ => False) :=
        (release_frame taken.sound (owned.held c (.head _)) (owned.unnamed c (.head _))).congr (by simp)
          fun _ => Iff.rfl
      exact exit (taken.settle sound gone)
    simp only [StateT.run_bind, heapNow_run, liftJni_run, Id.bind_eq]
    generalize run : (tagObjects (some k) answers.grows answers.tagging).run ⟨_, _, j₂⟩ = pt
    have tag := tagObjects_frame (some k) answers.grows answers.tagging cls.sound run
    obtain ⟨⟨col, colTags⟩, s₃⟩ := pt
    have middle := taken.seq sound tag
    replace owned := owned.keep cls.sound tag (fun _ _ => id) (fun _ => id) (Option.toList_nodup _)
    dsimp only at middle owned ⊢
    have finish : ∀ {j₄ : Jni} (lookup : Lookup), Frame s₃.jni j₄ (fun _ => False) (· ∈ lookup.arrays) →
        Owns j₄ (lookup.arrays ++ lookup.refs ++ (colTags.toList ++ [c])) →
        ∃ released, Frame s.jni ((snapshotTail jvm answers c colTags lookup).run j₄).2 released (fun _ => False) := by
      intro j₄ lookup look held
      obtain ⟨n, tail⟩ := snapshotTail_frame jvm answers c colTags lookup look.sound
        (held.sub fun h => by simp only [List.count_append]; omega)
      have settled : Frame j₄ _ (fun h => h ∈ lookup.arrays ++ (colTags.toList ++ ([] ++ (some c).toList)) ∨
          h ∈ lookup.refs.take n) (fun _ => False) := tail.congr (by simp) fun _ => Iff.rfl
      exact exit ((middle.seq sound look).settle sound settled)
    split
    · simp only [StateT.run_bind, Id.bind_eq]
      have look := getObjectsWithTags_frame middle.sound jvm s₃.world.heap answers.lookup col.tags true
      have held := getObjectsWithTags_owns middle.sound jvm s₃.world.heap answers.lookup col.tags true owned
      generalize (getObjectsWithTags jvm s₃.world.heap answers.lookup col.tags true).run s₃.jni = pg
        at look held ⊢
      obtain ⟨_ | lookup, j₄⟩ := pg
      · have printed := checkPrint_frame look.sound
        simp only [StateT.run_bind, Id.bind_eq, StateT.run_pure, Id.pure_eq]
        exact finish .none ((look.trans middle.sound printed).congr (by simp) (by simp [Lookup.none, Lookup.arrays]))
          (by simpa [Lookup.none, Lookup.arrays, Lookup.refs] using held.frame printed fun _ _ => id)
      · exact finish lookup look held
    · exact finish .none ((Frame.refl middle.sound).congr (fun _ _ => Iff.rfl) (by simp [Lookup.none, Lookup.arrays]))
        (by simpa [Lookup.none, Lookup.arrays, Lookup.refs] using owned)
end HeapAgent
