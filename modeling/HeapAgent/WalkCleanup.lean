import HeapAgent.SnapshotCleanup
import HeapAgent.System

/-! The walks' exits against the JNI ledger, and with the snapshot's the ledger
of every exported call. Each exit of `nativeWalkHeap`, `nativeWalkHeapFiltered`
and `nativeResolve` frees the arrays and buffers it holds; the references it
does not delete are left to the JVM. A call starts on an empty ledger, so what it
still holds at return is a reference, and it released nothing it did not hold. -/

namespace HeapAgent
namespace Jni
variable (jvm : Jvm)

theorem deleteRefs_eq (refs : List (Handle × Obj)) : deleteRefs refs = (refs.map Prod.fst).forM release := by
  induction refs with
  | nil => rfl
  | cons ref rest ih => simp [deleteRefs, deleteLocalRef, ih]

theorem arrays_append (lookup : Lookup) (rest : List Handle) :
    lookup.objects.toList ++ (lookup.tagsOut.toList ++ rest) = lookup.arrays ++ rest := by
  simp [Lookup.arrays]

theorem walkTail_frame (answers : WalkAnswers) (colTags : Option Handle) (lookup : Lookup) {j : Jni} (sound : j.Sound)
    (owns : Owns j (lookup.refs ++ (lookup.arrays ++ colTags.toList))) :
    Frame j ((walkTail jvm answers colTags lookup).run j).2
      (fun h => h ∈ lookup.arrays ++ colTags.toList ∨
        (((walkTail jvm answers colTags lookup).run j).1.isSome ∧ h ∈ lookup.refs)) (fun _ => False) := by
  have cls := findClass_frame sound jvm "java/lang/Object"
  simp only [walkTail, deleteRefs_eq, deallocate_eq, free_eq, forM_release_seq, arrays_append, StateT.run_bind,
    Id.bind_eq]
  generalize (findClass jvm "java/lang/Object").run j = p at cls ⊢
  obtain ⟨_ | _, j₁⟩ := p
  · exact (Frame.release_owned sound cls (owns.right.frame cls (by simp))).congr (by simp) (by simp)
  have array := newLocalRef_frame cls.sound answers.objectArray
  have idle := cls.trans sound array
  simp only [StateT.run_bind, Id.bind_eq]
  generalize (newLocalRef answers.objectArray).run j₁ = q at array idle ⊢
  obtain ⟨_ | _, j₂⟩ := q
  · exact (Frame.release_owned sound (idle.congr (by simp) (by simp)) (owns.right.frame idle (by simp))).congr
      (by simp) (by simp)
  · exact (Frame.release_owned sound (idle.congr (by simp) (by simp)) (owns.frame idle (by simp))).congr
      (by simp [Lookup.refs, or_comm]) (by simp)

theorem filteredTail_frame (answers : FilteredAnswers) (collected : Option Handle) (refs : List (Handle × Obj))
    {j : Jni} (sound : j.Sound) (owns : Owns j (refs.map Prod.fst ++ collected.toList)) :
    Frame j ((filteredTail jvm answers collected refs).run j).2 (· ∈ refs.map Prod.fst ++ collected.toList)
      (fun _ => False) := by
  simp only [filteredTail, deleteRefs_eq, free_eq, forM_release_seq, StateT.run_bind, Id.bind_eq]
  split
  · next empty =>
    rw [List.length_eq_zero] at empty
    subst empty
    exact Frame.release_owned sound (.refl sound) (by simpa using owns)
  have cls := findClass_frame sound jvm "java/lang/Object"
  simp only [StateT.run_bind, Id.bind_eq, StateT.run_pure, Id.pure_eq]
  generalize (findClass jvm "java/lang/Object").run j = p at cls ⊢
  obtain ⟨_ | _, j₁⟩ := p
  · exact Frame.release_owned sound cls (owns.frame cls (by simp))
  have array := newLocalRef_frame cls.sound answers.objectArray
  have idle := cls.trans sound array
  simp only [StateT.run_bind, Id.bind_eq]
  generalize (newLocalRef answers.objectArray).run j₁ = q at array idle ⊢
  obtain ⟨_ | _, j₂⟩ := q <;>
    exact (Frame.release_owned sound (idle.congr (by simp) (by simp)) (owns.frame idle (by simp))).congr
      (by simp) (by simp)

theorem collectClass_frame (ok : Bool) (targetClass : Handle) (colTags : Option Handle) (lookup : Lookup)
    (collected : Option Handle) (refs : List (Handle × Obj)) (collectedCap : Nat) {j : Jni} (sound : j.Sound)
    (owns : Owns j (lookup.refs ++ (lookup.arrays ++ colTags.toList ++ [targetClass]) ++
      (collected.toList ++ refs.map Prod.fst))) :
    Frame j ((collectClass ok targetClass colTags lookup collected refs collectedCap).run j).2
      (fun h => h ∈ lookup.arrays ++ colTags.toList ++ [targetClass] ∨
        (((collectClass ok targetClass colTags lookup collected refs collectedCap).run j).1 = none ∧
          h ∈ lookup.refs ++ collected.toList))
      (fun h => collected = none ∧
        ((collectClass ok targetClass colTags lookup collected refs collectedCap).run j).1.bind (·.1) = some h) ∧
    ∀ c refs' cap', ((collectClass ok targetClass colTags lookup collected refs collectedCap).run j).1 =
        some (c, refs', cap') →
      refs' = refs ++ lookup.found ∧ (∀ h, collected = some h → c = some h) ∧
        Owns ((collectClass ok targetClass colTags lookup collected refs collectedCap).run j).2
          (c.toList ++ refs'.map Prod.fst) := by
  simp only [collectClass, deleteRefs_eq, deallocate_eq, free_eq, deleteLocalRef_eq, forM_release_seq, arrays_append,
    StateT.run_bind, StateT.run_map, Id.bind_eq, Id.map_eq]
  have context : Owns j (lookup.arrays ++ (colTags.toList ++ [targetClass])) :=
    owns.sub fun h => by simp only [List.count_append]; omega
  have failed : ∀ {j₁ : Jni}, Frame j j₁ (fun _ => False) (fun _ => False) →
      Frame j ((((lookup.found.map Prod.fst ++
        (lookup.arrays ++ (colTags.toList ++ (collected.toList ++ [targetClass])))).forM release).run j₁).2)
        (fun h => h ∈ lookup.arrays ++ colTags.toList ++ [targetClass] ∨ (True ∧ h ∈ lookup.refs ++ collected.toList))
        (fun h => collected = none ∧ none = some h) := fun idle =>
    (Frame.release_owned sound idle ((owns.frame idle (by simp)).sub fun h => by
      simp only [Lookup.refs, List.count_append]; omega)).congr
      (fun _ _ => by simp only [Lookup.refs, List.mem_append, List.mem_singleton, true_and, or_comm, or_left_comm,
        or_assoc])
      (by simp)
  have stays : ∀ {j₁ : Jni} (c : Option Handle), Frame j j₁ (fun _ => False) (fun h => collected = none ∧ c = some h) →
      Owns j₁ (lookup.arrays ++ (colTags.toList ++ [targetClass]) ++ (c.toList ++ (refs ++ lookup.found).map Prod.fst)) →
      Frame j (((lookup.arrays ++ (colTags.toList ++ [targetClass])).forM release).run j₁).2
        (fun h => h ∈ lookup.arrays ++ colTags.toList ++ [targetClass] ∨ (False ∧ h ∈ lookup.refs ++ collected.toList))
        (fun h => collected = none ∧ c = some h) ∧
      Owns (((lookup.arrays ++ (colTags.toList ++ [targetClass])).forM release).run j₁).2
        (c.toList ++ (refs ++ lookup.found).map Prod.fst) := fun c grow left => by
    have gone := forM_release_frame grow.sound left.left
    exact ⟨(grow.trans sound gone).congr (by simp) fun h => ⟨fun kept => kept.elim (·.1) (·.elim),
      fun kept => .inl ⟨kept, context.not_kept sound grow kept⟩⟩, left.drop gone⟩
  split
  · obtain _ | block := collected <;> cases ok <;>
      simp only [realloc, StateT.run_pure, StateT.run_map, Id.map_eq, Id.pure_eq, Option.map_none', Option.map_some',
        ↓reduceIte, Bool.false_eq_true, StateT.run_bind, Id.bind_eq]
    · exact ⟨(failed (.refl sound)).congr (fun _ _ => Iff.rfl) (by simp), by simp⟩
    · have grow := acquire_frame sound .buffer
      obtain ⟨frame, left⟩ := stays (some ⟨j.fresh, .buffer⟩) (grow.congr (fun _ _ => Iff.rfl) (by simp [Kind.native, eq_comm]))
        ((owns.acquire sound .buffer).sub fun h => by simp only [Lookup.refs, List.count_append, List.map_append,
          List.count_cons, Option.toList_some, Option.toList_none, List.count_singleton', List.count_nil]; omega)
      refine ⟨frame.congr (by simp) (by simp), fun c refs' cap' same => ?_⟩
      simp only [Option.some.injEq, Prod.mk.injEq] at same
      obtain ⟨rfl, rfl, -⟩ := same
      exact ⟨rfl, by simp, left⟩
    · exact ⟨(failed (.refl sound)).congr (fun _ _ => Iff.rfl) (by simp), by simp⟩
    · obtain ⟨frame, left⟩ := stays (some block) ((Frame.refl sound).congr (fun _ _ => Iff.rfl) (by simp))
        (owns.sub fun h => by simp only [Lookup.refs, List.count_append, List.map_append]; omega)
      refine ⟨frame.congr (by simp) (by simp), fun c refs' cap' same => ?_⟩
      simp only [Option.some.injEq, Prod.mk.injEq] at same
      obtain ⟨rfl, rfl, -⟩ := same
      exact ⟨rfl, by simp, left⟩
  · obtain ⟨frame, left⟩ := stays collected ((Frame.refl sound).congr (fun _ _ => Iff.rfl) (by cases collected <;> simp))
      (owns.sub fun h => by simp only [Lookup.refs, List.count_append, List.map_append]; omega)
    refine ⟨frame.congr (by simp) (by simp), fun c refs' cap' same => ?_⟩
    simp only [Option.some.injEq, Prod.mk.injEq] at same
    obtain ⟨rfl, rfl, -⟩ := same
    exact ⟨rfl, by simp, left⟩
end Jni
open Jni

theorem nativeWalkHeap_frame (jvm : Jvm) (answers : WalkAnswers) {s : Native} (sound : s.jni.Sound) :
    ∃ released, Frame s.jni ((nativeWalkHeap jvm answers).run s).2.jni released (fun _ => False) := by
  obtain ⟨w, log, j₀⟩ := s
  dsimp only at sound ⊢
  simp only [nativeWalkHeap, StateT.run_bind, clearAllTags_run, resetLocalCounter_run, heapNow_run, liftJni_run,
    Id.bind_eq]
  have cleared :
      Frame j₀ (if answers.clear then j₀ else (checkPrint.run j₀).2) (fun _ => False) (fun _ => False) := by
    split
    · exact .refl sound
    · exact checkPrint_frame sound
  generalize (if answers.clear then j₀ else (checkPrint.run j₀).2) = j at cleared ⊢
  have exit : ∀ {j' : Jni} {r : Handle → Prop}, Frame j j' r (fun _ => False) →
      ∃ released, Frame j₀ j' released (fun _ => False) :=
    fun frame => ⟨_, (cleared.trans sound frame).congr (fun _ _ => Iff.rfl) (by simp)⟩
  replace sound := cleared.sound
  generalize run : (tagObjects none answers.grows answers.tagging).run ⟨_, _, j⟩ = pt
  have tag := tagObjects_frame none answers.grows answers.tagging sound run
  obtain ⟨⟨col, colTags⟩, s₃⟩ := pt
  dsimp only at tag ⊢
  have owned : Owns s₃.jni (colTags.toList ++ []) := (Owns.nil j).keep sound tag
    (fun _ no => absurd no (List.not_mem_nil _)) (fun _ => id) (Option.toList_nodup _)
  rw [List.append_nil] at owned
  split
  · simp only [free_eq, StateT.run_bind, Id.bind_eq]
    exact exit (tag.release_kept sound owned)
  have look := getObjectsWithTags_frame tag.sound jvm s₃.world.heap answers.lookup col.tags true
  have held := getObjectsWithTags_owns tag.sound jvm s₃.world.heap answers.lookup col.tags true owned
  have middle := tag.seq sound look
  simp only [StateT.run_bind, Id.bind_eq, StateT.run_pure, Id.pure_eq]
  generalize (getObjectsWithTags jvm s₃.world.heap answers.lookup col.tags true).run s₃.jni = pl
    at look held middle ⊢
  obtain ⟨_ | lookup, j₄⟩ := pl <;> dsimp only [Option.getD] at look held middle ⊢
  · have printed := checkPrint_frame look.sound
    simp only [free_eq, StateT.run_bind, Id.bind_eq]
    exact exit (((middle.trans sound printed).congr (fun _ _ => Iff.rfl)
      (by simp [Lookup.none, Lookup.arrays])).release_kept sound
      (by simpa [Lookup.none, Lookup.arrays, Lookup.refs] using held.frame printed fun _ _ => id))
  · have tail := walkTail_frame jvm answers colTags lookup look.sound
      (held.sub fun h => by simp only [List.count_append]; omega)
    have settled : Frame j₄ _ (fun h => h ∈ lookup.arrays ++ colTags.toList ∨
        (((walkTail jvm answers colTags lookup).run j₄).1.isSome ∧ h ∈ lookup.refs)) (fun _ => False) := tail
    exact exit ((middle.congr (fun _ _ => Iff.rfl) fun _ => Iff.rfl).settle sound settled)

theorem nativeResolve_frame (jvm : Jvm) (lookupOk : Bool) (tag : Nat) {s : Native} (sound : s.jni.Sound) :
    ∃ released, Frame s.jni ((nativeResolve jvm lookupOk tag).run s).2.jni released (fun _ => False) := by
  obtain ⟨w, log, j⟩ := s
  dsimp only at sound ⊢
  simp only [nativeResolve, StateT.run_bind, heapNow_run, liftJni_run, Id.bind_eq, deleteRefs_eq, deallocate_eq,
    forM_release_seq]
  rw [getObjectsWithTags_run]
  by_cases ok : lookupOk = true ∧ 0 ∉ [tag]
  · simp only [ok, ↓reduceIte]
    have look := handOver_frame sound (jvm.objectsWithTags w.heap [tag]) false
    have held := handOver_owns sound (jvm.objectsWithTags w.heap [tag]) false (Owns.nil j)
    have single := handOver_tagsOut (jvm.objectsWithTags w.heap [tag]) j
    generalize (handOver (jvm.objectsWithTags w.heap [tag]) false).run j = p at look held single ⊢
    obtain ⟨lookup, j₁⟩ := p
    dsimp only at look held single ⊢
    have owned : Owns j₁ ((lookup.found.drop 1).map Prod.fst ++ lookup.objects.toList) := held.sub fun h => by
      have drop : ((lookup.found.drop 1).map Prod.fst).count h ≤ lookup.refs.count h := by
        rw [List.map_drop]; exact (List.drop_sublist 1 _).count_le h
      simp only [Lookup.arrays, single, List.count_append, Option.toList_none, List.append_nil]
      omega
    have gone : Frame j₁ _ (fun h => h ∈ lookup.arrays ∨ h ∈ (lookup.found.drop 1).map Prod.fst) (fun _ => False) :=
      (forM_release_frame look.sound owned).congr (by simp [Lookup.arrays, single, or_comm]) fun _ => Iff.rfl
    exact ⟨_, look.settle sound gone⟩
  · simp only [ok, ↓reduceIte, StateT.run_bind, Id.bind_eq]
    exact ⟨_, checkPrint_frame sound⟩

theorem filteredTurn_frame (jvm : Jvm) (here : ClassAnswers) (element : Option String) (collected : Option Handle)
    (refs : List (Handle × Obj)) (collectedCap : Nat) {s : Native} (sound : s.jni.Sound)
    (owns : Owns s.jni (collected.toList ++ refs.map Prod.fst)) :
    Frame s.jni ((filteredTurn jvm here element collected refs collectedCap).run s).2.jni
      (fun h => ((filteredTurn jvm here element collected refs collectedCap).run s).1 = none ∧ h ∈ collected.toList)
      (fun h => collected = none ∧
        ((filteredTurn jvm here element collected refs collectedCap).run s).1.bind (·.1) = some h) ∧
    ∀ c refs' cap', ((filteredTurn jvm here element collected refs collectedCap).run s).1 = some (c, refs', cap') →
      (∀ h, collected = some h → c = some h) ∧
        Owns ((filteredTurn jvm here element collected refs collectedCap).run s).2.jni (c.toList ++ refs'.map Prod.fst) := by
  obtain ⟨w, log, j⟩ := s
  dsimp only at sound owns ⊢
  generalize run : (filteredTurn jvm here element collected refs collectedCap).run ⟨w, log, j⟩ = result
  -- the turns that leave `collected` and `refs` as they were
  have same : ∀ {j' : Jni}, Frame j j' (fun _ => False) (fun _ => False) → result.1 = some (collected, refs, collectedCap) →
      result.2.jni = j' →
      Frame j result.2.jni (fun h => result.1 = none ∧ h ∈ collected.toList)
        (fun h => collected = none ∧ result.1.bind (·.1) = some h) ∧
      ∀ c refs' cap', result.1 = some (c, refs', cap') → (∀ h, collected = some h → c = some h) ∧
        Owns result.2.jni (c.toList ++ refs'.map Prod.fst) := by
    intro j' frame value state
    subst state
    refine ⟨frame.congr (by simp [value]) (by cases collected <;> simp [value]), fun c refs' cap' result => ?_⟩
    simp only [value, Option.some.injEq, Prod.mk.injEq] at result
    obtain ⟨rfl, rfl, -⟩ := result
    exact ⟨fun _ => id, owns.frame frame (by simp)⟩
  cases element with
  | none =>
    simp only [filteredTurn] at run
    subst run
    exact same (.refl sound) rfl rfl
  | some name =>
    simp only [filteredTurn, StateT.run_bind, liftJni_run, Id.bind_eq] at run
    have named := localRef_frame sound
    have owned := owns.acquire sound .localRef
    have chars := getStringUTFChars_frame named.sound here.chars
    generalize (getStringUTFChars here.chars).run ((acquire .localRef).run j).2 = pc at chars run
    have young : j.fresh ≤ (⟨j.fresh, .localRef⟩ : Handle).id := le_rfl
    obtain ⟨_ | cname, j₂⟩ := pc <;> simp only [acquire_run] at run
    · simp only [deleteLocalRef, StateT.run_bind, StateT.run_pure, Id.bind_eq, Id.pure_eq] at run
      subst run
      exact same ((named.trans sound chars).release_fresh sound young
        ((owned.frame chars fun _ _ => id).held _ (.head _)) ((owned.frame chars fun _ _ => id).unnamed _ (.head _))
        |>.congr (by simp) (by simp)) rfl rfl
    have spelled := named.nil.seq sound chars
    have owned₂ : Owns j₂ ([cname] ++ (⟨j.fresh, .localRef⟩ :: (collected.toList ++ refs.map Prod.fst))) :=
      owned.keep named.sound chars (fun _ _ => id) (fun _ => id) (List.nodup_singleton _)
    have fresh : j.fresh ≤ cname.id := (spelled.kept cname (by simp)).1
    simp only [StateT.run_bind, liftJni_run, Id.bind_eq] at run
    have cls := findClass_frame chars.sound jvm name
    generalize found : (findClass jvm name).run j₂ = pf at cls run
    obtain ⟨target, j₃⟩ := pf
    have owned₃ : Owns j₃ (cname :: ⟨j.fresh, .localRef⟩ :: ((target.map Prod.fst).toList ++
        (collected.toList ++ refs.map Prod.fst))) := by
      cases target with
      | none => exact owned₂.frame cls fun _ _ => id
      | some target =>
        obtain ⟨targetRef, k⟩ := target
        exact (findClass_owns chars.sound jvm name owned₂ found).2.sub fun h => by
          simp only [List.count_cons, List.count_append, Option.map_some', Option.toList_some, List.singleton_append]
          omega
    have released := release_frame cls.sound (owned₃.held _ (.head _)) (owned₃.unnamed _ (.head _))
    have deleted := release_frame released.sound ((owned₃.release_head released).held _ (.head _))
      ((owned₃.release_head released).unnamed _ (.head _))
    have owned₅ := (owned₃.release_head released).release_head deleted
    have quiet : Frame j ((release ⟨j.fresh, .localRef⟩).run ((release cname).run j₃).2).2 (fun _ => False)
        (fun _ => False) :=
      ((spelled.seq sound cls.nil).trans sound released |>.trans sound deleted).congr
        (fun h held => by
          have : h ≠ cname := fun same => sound.not_mem fresh (same ▸ held)
          have : h ≠ ⟨j.fresh, .localRef⟩ := fun same => sound.not_mem young (same ▸ held)
          simp [*])
        (by simp)
    simp only [releaseStringUTFChars, deleteLocalRef] at run
    cases target with
    | none =>
      simp only [StateT.run_bind, StateT.run_pure, liftJni_run, exceptionCheck_run, Id.bind_eq, Id.pure_eq] at run
      subst run
      refine same (quiet.trans sound (.of_eq quiet.sound ?_ ?_ ?_ ?_) |>.congr (by simp) (by simp)) rfl rfl <;>
        dsimp only <;> split <;> rfl
    | some target =>
      obtain ⟨targetRef, k⟩ := target
      have targetYoung : j.fresh ≤ targetRef.id := by
        rw [(findClass_owns chars.sound jvm name owned₂ found).1]
        exact spelled.fresh
      simp only [Option.map_some', Option.toList_some, List.singleton_append] at owned₅
      generalize ((release ⟨j.fresh, .localRef⟩).run ((release cname).run j₃).2).2 = j₅ at quiet owned₅ run
      simp only [StateT.run_bind, bumpEpoch_run, resetLocalCounter_run, heapNow_run, liftJni_run, Id.bind_eq] at run
      generalize tagged : (tagObjects (some k) here.grows here.tagging).run ⟨_, _, j₅⟩ = pt at run
      have tag := tagObjects_frame (some k) here.grows here.tagging quiet.sound tagged
      obtain ⟨⟨col, colTags⟩, s₆⟩ := pt
      dsimp only at tag run
      have owned₆ : Owns s₆.jni (colTags.toList ++ (targetRef :: (collected.toList ++ refs.map Prod.fst))) :=
        owned₅.keep quiet.sound tag (fun _ _ => id) (fun _ => id) (Option.toList_nodup _)
      have middle := quiet.nil.seq sound tag
      have exit : ∀ {j₇ : Jni}, Frame s₆.jni j₇ (fun _ => False) (fun _ => False) →
          Frame j ((release targetRef).run ((colTags.toList.forM release).run j₇).2).2 (fun _ => False)
            (fun _ => False) := fun {j₇} idle => by
        have kept : Frame j j₇ (fun _ => False) (· ∈ colTags.toList) :=
          (middle.trans sound idle).congr (by simp) (by simp)
        have left := owned₆.frame idle fun _ _ => id
        have gone := forM_release_frame idle.sound left.left
        exact ((kept.release_kept sound left.left).release_fresh sound targetYoung
          ((left.drop gone).held _ (.head _)) ((left.drop gone).unnamed _ (.head _))).congr (fun _ _ => Iff.rfl)
          (by simp)
      split at run
      · simp only [free_eq, StateT.run_bind, StateT.run_pure, Id.bind_eq, Id.pure_eq] at run
        subst run
        exact same (exit (.refl tag.sound)) rfl rfl
      simp only [StateT.run_bind, StateT.run_pure, Id.bind_eq, Id.pure_eq] at run
      have look := getObjectsWithTags_frame tag.sound jvm s₆.world.heap here.lookup col.tags true
      have held := getObjectsWithTags_owns tag.sound jvm s₆.world.heap here.lookup col.tags true owned₆
      have young := getObjectsWithTags_fresh jvm s₆.world.heap here.lookup col.tags true s₆.jni
      generalize (getObjectsWithTags jvm s₆.world.heap here.lookup col.tags true).run s₆.jni = pl
        at look held young run
      obtain ⟨_ | lookup, j₇⟩ := pl <;> dsimp only [Option.getD] at look held young run
      · simp only [free_eq, StateT.run_bind, StateT.run_pure, Id.bind_eq, Id.pure_eq] at run
        subst run
        exact same (exit ((look.trans tag.sound (checkPrint_frame look.sound)).congr (by simp)
          (by simp [Lookup.none, Lookup.arrays]))) rfl rfl
      subst run
      obtain ⟨gathered, outcome⟩ := collectClass_frame here.collect targetRef colTags lookup collected refs collectedCap
        look.sound (held.sub fun h => by simp only [Lookup.refs, List.count_append, List.count_cons, List.count_nil]; omega)
      refine ⟨((middle.seq sound look).trans sound gathered).congr (fun h old => ?_) fun h => ?_,
        fun c refs' cap' value => ?_⟩
      · have kept := middle.seq sound look
        have arrays : h ∉ lookup.arrays := fun m => sound.not_mem (kept.kept h (by simp [m])).1 old
        have tags : h ∉ colTags.toList := fun m => sound.not_mem (kept.kept h (by simp [m])).1 old
        have target : h ≠ targetRef := fun same => sound.not_mem (same ▸ targetYoung) old
        have refs : h ∉ lookup.refs := fun m => sound.not_mem (middle.fresh.trans (young h m)) old
        simp [arrays, tags, target, refs]
      · constructor
        · rintro (⟨kept, gone⟩ | kept)
          · simp only [List.append_nil, List.mem_append] at kept
            exact absurd (.inl (List.mem_append.mpr (.inl (List.mem_append.mpr kept)))) gone
          · exact kept
        · exact .inr
      · obtain ⟨-, stable, left⟩ := outcome c refs' cap' value
        exact ⟨stable, left⟩

theorem filteredLoop_frame (jvm : Jvm) (answers : FilteredAnswers) (ci : Nat) (names : List (Option String))
    (collected : Option Handle) (refs : List (Handle × Obj)) (collectedCap : Nat) {s : Native} (sound : s.jni.Sound)
    (owns : Owns s.jni (collected.toList ++ refs.map Prod.fst)) :
    Frame s.jni ((filteredLoop jvm answers ci names collected refs collectedCap).run s).2.jni
      (fun h => ((filteredLoop jvm answers ci names collected refs collectedCap).run s).1 = none ∧ h ∈ collected.toList)
      (fun h => collected = none ∧
        ((filteredLoop jvm answers ci names collected refs collectedCap).run s).1.bind (·.1) = some h) ∧
    ∀ c refs' cap', ((filteredLoop jvm answers ci names collected refs collectedCap).run s).1 = some (c, refs', cap') →
      (∀ h, collected = some h → c = some h) ∧
        Owns ((filteredLoop jvm answers ci names collected refs collectedCap).run s).2.jni (c.toList ++ refs'.map Prod.fst) := by
  induction names generalizing ci collected refs collectedCap s with
  | nil =>
    refine ⟨(Frame.refl sound).congr (by simp [filteredLoop]) (by cases collected <;> simp [filteredLoop]), ?_⟩
    simp only [filteredLoop, StateT.run_pure, Id.pure_eq, Option.some.injEq, Prod.mk.injEq]
    rintro c refs' cap' ⟨rfl, rfl, -⟩
    exact ⟨fun _ => id, owns⟩
  | cons element rest ih =>
    obtain ⟨first, after⟩ := filteredTurn_frame jvm (answers.perClass ci) element collected refs collectedCap sound owns
    simp only [filteredLoop, StateT.run_bind, Id.bind_eq]
    generalize (filteredTurn jvm (answers.perClass ci) element collected refs collectedCap).run s = turn at first after ⊢
    obtain ⟨_ | ⟨c₁, refs₁, cap₁⟩, s₁⟩ := turn
    · exact ⟨first.congr (by simp) (by simp), by simp⟩
    obtain ⟨stable₁, owned₁⟩ := after c₁ refs₁ cap₁ rfl
    obtain ⟨second, outcome⟩ := ih (ci + 1) c₁ refs₁ cap₁ first.sound owned₁
    generalize (filteredLoop jvm answers (ci + 1) rest c₁ refs₁ cap₁).run s₁ = loop at second outcome ⊢
    obtain ⟨r, s₂⟩ := loop
    simp only [reduceCtorEq, false_and, Option.some_bind] at first second outcome ⊢
    refine ⟨(first.trans sound second).congr (fun h held => ?_) (fun h => ?_), fun c refs' cap' value => ?_⟩
    · simp only [false_or, Option.mem_toList, Option.mem_def]
      cases collected with
      | none =>
        simp only [reduceCtorEq, and_false, iff_false, not_and]
        exact fun _ same => sound.not_mem (first.kept h ⟨rfl, same⟩).1 held
      | some block => rw [stable₁ block rfl]
    · cases r with
      | none =>
        simp only [Option.none_bind, reduceCtorEq, and_false, or_false, true_and, iff_false, not_and, not_not]
        rintro ⟨-, rfl⟩
        exact Option.mem_toList.mpr rfl
      | some final =>
        obtain ⟨stable₂, -⟩ := outcome final.1 final.2.1 final.2.2 rfl
        simp only [Option.some_bind, reduceCtorEq, false_and, not_false_eq_true, and_true]
        cases c₁ with
        | none =>
          have untouched : collected = none := by
            cases collected with
            | none => rfl
            | some block => exact absurd (stable₁ block rfl) nofun
          simp [untouched]
        | some block => simp only [stable₂ block rfl, reduceCtorEq, false_and, or_false, Option.some.injEq]
    · obtain ⟨stable₂, owned₂⟩ := outcome c refs' cap' value
      exact ⟨fun h same => stable₂ h (stable₁ h same), owned₂⟩

theorem nativeWalkHeapFiltered_frame (jvm : Jvm) (answers : FilteredAnswers)
    (classNamesArray : Option (List (Option String))) {s : Native} (sound : s.jni.Sound) :
    ∃ released, Frame s.jni ((nativeWalkHeapFiltered jvm answers classNamesArray).run s).2.jni released
      (fun _ => False) := by
  obtain _ | names := classNamesArray
  · exact ⟨_, Frame.refl sound⟩
  by_cases empty : names.length = 0
  · simp only [nativeWalkHeapFiltered, empty, ↓reduceIte]
    exact ⟨_, Frame.refl sound⟩
  obtain ⟨loop, outcome⟩ := filteredLoop_frame jvm answers 0 names none [] 0 sound (by simpa using Owns.nil s.jni)
  simp only [nativeWalkHeapFiltered, empty, ↓reduceIte, StateT.run_bind, StateT.run_pure, Id.pure_eq, Id.bind_eq]
  generalize (filteredLoop jvm answers 0 names none [] 0).run s = walked at loop outcome ⊢
  obtain ⟨_ | ⟨c, refs, cap⟩, s₁⟩ := walked
  · exact ⟨_, loop.congr (fun _ _ => Iff.rfl) (by simp)⟩
  obtain ⟨-, owned⟩ := outcome c refs cap rfl
  have tail := filteredTail_frame jvm answers c refs loop.sound (owned.perm List.perm_append_comm)
  have settled : Frame s₁.jni _ (fun h => h ∈ c.toList ∨ h ∈ refs.map Prod.fst) (fun _ => False) :=
    tail.congr (fun _ _ => by simp only [List.mem_append, or_comm]) fun _ => Iff.rfl
  simp only [liftJni_run]
  exact ⟨_, (loop.congr (fun _ _ => Iff.rfl) (by simp [eq_comm])).settle sound settled⟩

/-- Every exported call starts on the empty ledger and returns having released
only handles it held and keeping no native one. -/
theorem Call.run_frame (jvm : Jvm) (w : World) (call : Call) :
    ∃ released, Frame (Native.start w).jni (call.run jvm w).jni released (fun _ => False) := by
  have start : (Native.start w).jni.Sound :=
    ⟨fun _ no => absurd no (List.not_mem_nil _), List.nodup_nil, fun _ no => absurd no (List.not_mem_nil _)⟩
  cases call with
  | snapshotBytes answers jClassName => exact nativeSnapshotBytes_frame jvm answers jClassName start
  | walkHeap answers => exact nativeWalkHeap_frame jvm answers start
  | walkHeapFiltered answers classNamesArray => exact nativeWalkHeapFiltered_frame jvm answers classNamesArray start
  | resolve lookupOk tag => exact nativeResolve_frame jvm lookupOk tag start
  | advanceEpoch => exact ⟨_, Frame.refl start⟩

/-- Whatever the runtime answers, every exported call returns having released
nothing it did not hold and having given back each memory block, JVMTI array and
UTF string it took, but not the error names: every string `GetErrorName` handed
to `check_print` is still held, and besides references, which the JVM frees at
return, these strings are all the call still holds. -/
theorem Call.run_holds_only_errorNames (jvm : Jvm) (w : World) (call : Call) :
    (∀ h ∈ (call.run jvm w).jni.held, h.kind.native = true → h ∈ (call.run jvm w).jni.names) ∧
      (∀ h ∈ (call.run jvm w).jni.names, h ∈ (call.run jvm w).jni.held) ∧ (call.run jvm w).jni.strays = [] := by
  obtain ⟨_, frame⟩ := Call.run_frame jvm w call
  refine ⟨fun h held native => ?_, frame.sound.named, frame.strays⟩
  by_contra unnamed
  exact (frame.grows h held (List.not_mem_nil _)).2 native unnamed

/-- A `nativeResolve` whose `GetObjectsWithTags` fails returns holding the name
of that error. -/
theorem Call.run_holds_only_errorNames_failedResolve :
    (Call.run sampleJvm (World.init []) (.resolve false 1)).jni.names = [⟨0, .errorName⟩] ∧
      ⟨0, .errorName⟩ ∈ (Call.run sampleJvm (World.init []) (.resolve false 1)).jni.held :=
  ⟨rfl, (Call.run_holds_only_errorNames sampleJvm (World.init []) (.resolve false 1)).2.1 _
    (List.mem_singleton_self _)⟩

end HeapAgent
