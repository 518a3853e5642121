import HeapAgent.SnapshotSpec
import HeapAgent.Pass
import Mathlib.Algebra.BigOperators.Group.List

/-! What the clearing calls report. `nativeSnapshotBytes` and `nativeWalkHeap`
clear every tag before their pass, so when every runtime call succeeds the pass
is complete whatever earlier calls left behind, and the lookup reports exactly
the objects it tagged. When the pass or the lookup fails, neither call looks at
the error: the snapshot comes back empty, not `NULL`. -/

namespace HeapAgent

theorem filter_admits_shape (klass : Option Nat) {heap heap' : List Obj}
    (same : heap'.map Obj.shape = heap.map Obj.shape) :
    (heap'.filter (admits klass)).map Obj.shape = (heap.filter (admits klass)).map Obj.shape := by
  induction heap generalizing heap' with
  | nil => simp_all
  | cons o rest ih =>
    cases heap' with
    | nil => simp at same
    | cons o' rest' =>
      simp only [List.map_cons, List.cons.injEq] at same
      have cls : o'.cls = o.cls := congrArg Prod.snd same.1
      have admitted : admits klass o' = admits klass o := by simp [admits, cls]
      by_cases here : admits klass o <;> simp [List.filter_cons, admitted, here, same.1, ih same.2]

theorem composeTag_counter_ne_zero (epoch : Nat) {counter : Nat} (pos : 0 < counter) (fits : counter < 2 ^ 32) :
    composeTag epoch counter ≠ 0 := by
  rw [composeTag_eq]
  omega

section CompletePass

variable (klass : Option Nat) (epoch : Nat) {heap : List Obj}

theorem filter_fresh_untagged (untagged : ∀ o ∈ heap, o.tag = 0) :
    heap.filter (fresh klass) = heap.filter (admits klass) :=
  List.filter_congr fun o member => by simp [fresh, untagged o member]

theorem range_tags_nonzero {n : Nat} (few : n < 2 ^ 32) : 0 ∉ (List.range' 1 n).map (composeTag epoch) := by
  simp only [List.mem_map, List.mem_range'_1, not_exists, not_and]
  exact fun k range zero => composeTag_counter_ne_zero epoch (by omega) (by omega) zero

theorem tagFrom_tagged (untagged : ∀ o ∈ heap, o.tag = 0) (few : (heap.filter (admits klass)).length < 2 ^ 32) :
    ∀ o ∈ tagFrom klass epoch 1 heap, o.tag ≠ 0 ↔ admits klass o = true := by
  intro o member
  by_cases admitted : admits klass o
  · have issued : o.tag ∈ (retag epoch 1 (heap.filter (admits klass))).map Obj.tag := by
      rw [← tagFrom_filter_admits klass epoch 1 untagged]
      exact List.mem_map_of_mem _ (List.mem_filter.mpr ⟨member, admitted⟩)
    rw [retag_tags] at issued
    simp only [admitted, iff_true]
    exact fun zero => range_tags_nonzero epoch few (zero ▸ issued)
  · simp [admitted, untagged o (mem_tagFrom_skipped klass epoch member (by simpa using admitted))]

theorem tagFrom_lookup (untagged : ∀ o ∈ heap, o.tag = 0) (few : (heap.filter (admits klass)).length < 2 ^ 32) :
    (tagFrom klass epoch 1 heap).filter
        (fun o => decide (o.tag ∈ (List.range' 1 (heap.filter (admits klass)).length).map (composeTag epoch))) =
      (tagFrom klass epoch 1 heap).filter (admits klass) := by
  rw [tagFrom_filter_admits klass epoch 1 untagged, ← filter_fresh_untagged klass untagged]
  rw [← filter_fresh_untagged klass untagged] at few
  refine tagFrom_filter_issued klass epoch _ 1 heap (fun k low high => ?_) (fun o member _ => ?_)
  · exact List.mem_map_of_mem _ (List.mem_range'_1.mpr ⟨low, high⟩)
  · rw [untagged o member]
    exact range_tags_nonzero epoch few

end CompletePass

section Clearing

variable (w : World)

theorem clearTags_shape : w.clearTags.heap.map Obj.shape = w.heap.map Obj.shape :=
  iterateThroughHeap_shape none clearTagCb w.heap ()

theorem clearedPass_complete (klass : Option Nat) :
    (w.clearTags.resetCounter.tagPass klass fun _ => true).1.heap = tagFrom klass w.epoch 1 w.clearTags.heap ∧
      (w.clearTags.resetCounter.tagPass klass fun _ => true).2.1.tags =
        (List.range' 1 (w.clearTags.heap.filter (admits klass)).length).map (composeTag w.epoch) ∧
      (w.clearTags.resetCounter.tagPass klass fun _ => true).2.1.count =
        (w.clearTags.heap.filter (admits klass)).length := by
  obtain ⟨heap, tags, count⟩ := World.tagPass_complete w.clearTags.resetCounter klass
  rw [World.resetCounter_heap, filter_fresh_untagged klass (World.clearTags_untagged w)] at tags count
  exact ⟨heap, tags, count⟩

theorem clearedPass_length (klass : Option Nat) :
    (w.clearTags.heap.filter (admits klass)).length = (w.heap.filter (admits klass)).length := by
  simpa using congrArg List.length (filter_admits_shape klass (clearTags_shape w))

theorem clearedPass_refs (klass : Option Nat) :
    ((tagFrom klass w.epoch 1 w.clearTags.heap).filter (admits klass)).map Obj.ref =
      (w.heap.filter (admits klass)).map Obj.ref := by
  rw [tagFrom_filter_admits klass w.epoch 1 (World.clearTags_untagged w)]
  have shape := (retag_shape w.epoch 1 _).trans (filter_admits_shape klass (clearTags_shape w))
  simpa only [List.map_map] using congrArg (List.map Prod.fst) shape

theorem clearedPass_found (jvm : Jvm) (klass : Option Nat)
    (small : (w.clearTags.heap.filter (admits klass)).length < 2 ^ 32) :
    let pass := w.clearTags.resetCounter.tagPass klass fun _ => true
    (if 0 < pass.2.1.count ∧ 0 ∉ pass.2.1.tags then jvm.objectsWithTags pass.1.heap pass.2.1.tags else []).Perm
      ((tagFrom klass w.epoch 1 w.clearTags.heap).filter (admits klass)) := by
  obtain ⟨heap, tags, count⟩ := clearedPass_complete w klass
  simp only [heap, tags, count]
  by_cases empty : (w.clearTags.heap.filter (admits klass)).length = 0
  · have none : (tagFrom klass w.epoch 1 w.clearTags.heap).filter (admits klass) = [] := by
      rw [tagFrom_filter_admits _ _ 1 (World.clearTags_untagged w), ← List.length_eq_zero, retag_length]
      exact empty
    simp [empty, none]
  · have reported := jvm.reports (tagFrom klass w.epoch 1 w.clearTags.heap)
      ((List.range' 1 (w.clearTags.heap.filter (admits klass)).length).map (composeTag w.epoch))
    rw [tagFrom_lookup klass w.epoch (World.clearTags_untagged w) small] at reported
    rwa [if_pos ⟨Nat.pos_of_ne_zero empty, range_tags_nonzero w.epoch small⟩]

/-- A clear, a reset and a pass whose collector stops after `m` tags, `m` being
the number of admitted objects or the count at the first refused growth: the
pass tags every admitted object, the collector holds the first `m` tags, and
the objects carrying one of them are the first `m` admitted ones. -/
theorem clearedPass_stored (klass : Option Nat) (grows : Nat → Bool) {m : Nat}
    (small : (w.heap.filter (admits klass)).length < 2 ^ 32) (granted : ∀ i < m, capacityAfter i ≤ i → grows i = true)
    (stops : m = (w.heap.filter (admits klass)).length ∨
      m < (w.heap.filter (admits klass)).length ∧ capacityAfter m ≤ m ∧ grows m = false) :
    let pass := w.clearTags.resetCounter.tagPass klass grows
    pass.1.heap = tagFrom klass w.epoch 1 w.clearTags.heap ∧
      pass.2.1 = .reached ((List.range' 1 m).map (composeTag w.epoch)) (decide (m < (w.heap.filter (admits klass)).length)) ∧
      pass.1.heap.filter (fun o => decide (o.tag ∈ pass.2.1.tags)) = (pass.1.heap.filter (admits klass)).take m := by
  dsimp only
  have untagged := World.clearTags_untagged w
  have within : m ≤ (w.heap.filter (admits klass)).length := by rcases stops with same | ⟨less, -⟩ <;> omega
  have same : (w.clearTags.heap.filter (fresh klass)).length = (w.heap.filter (admits klass)).length := by
    rw [filter_fresh_untagged klass untagged, clearedPass_length]
  have heap : (w.clearTags.resetCounter.tagPass klass grows).1.heap = tagFrom klass w.epoch 1 w.clearTags.heap := by
    simp [World.tagPass_eq]
  have col := World.tagPass_stops w.clearTags.resetCounter klass grows granted (by simpa [same] using stops)
  simp only [World.resetCounter_counter, World.resetCounter_epoch, World.clearTags_epoch, World.resetCounter_heap,
    same] at col
  have stale : ∀ o ∈ w.clearTags.heap, fresh klass o = false → o.tag ∉ (List.range' 1 m).map (composeTag w.epoch) :=
    fun o member _ => by rw [untagged o member]; exact range_tags_nonzero w.epoch (by omega)
  refine ⟨heap, col, ?_⟩
  rw [col, heap, TagCollector.reached_tags, tagFrom_filter_stored klass w.epoch m 1 _ (by omega) stale,
    tagFrom_filter_admits klass w.epoch 1 untagged, filter_fresh_untagged klass untagged]

theorem clearedPass_reported (jvm : Jvm) (klass : Option Nat) (grows : Nat → Bool) {m : Nat}
    (small : (w.heap.filter (admits klass)).length < 2 ^ 32) (granted : ∀ i < m, capacityAfter i ≤ i → grows i = true)
    (stops : m = (w.heap.filter (admits klass)).length ∨
      m < (w.heap.filter (admits klass)).length ∧ capacityAfter m ≤ m ∧ grows m = false) :
    let pass := w.clearTags.resetCounter.tagPass klass grows
    (if 0 < pass.2.1.count ∧ 0 ∉ pass.2.1.tags then jvm.objectsWithTags pass.1.heap pass.2.1.tags else []).Perm
      ((pass.1.heap.filter (admits klass)).take m) := by
  dsimp only
  obtain ⟨-, col, lookup⟩ := clearedPass_stored w klass grows small granted stops
  have within : m < 2 ^ 32 := by rcases stops with same | ⟨less, -⟩ <;> omega
  rw [← lookup]
  by_cases none : m = 0
  · subst none
    simp [col]
  · rw [if_pos ⟨by simp only [col, TagCollector.reached_count, List.length_map, List.length_range']; omega,
      by simpa only [col, TagCollector.reached_tags] using range_tags_nonzero w.epoch within⟩]
    exact jvm.reports _ _

end Clearing

theorem instanceSizes (jvm : Jvm) (cls : Nat) (found : List Obj) (instances : ∀ o ∈ found, o.cls = cls) :
    (found.map fun o => 12 + (jvm.nameOf o).length).sum = found.length * (12 + (jvm.className cls).bytes.length) := by
  rw [List.map_congr_left fun o member => by rw [Jvm.nameOf, instances o member], List.map_const', List.sum_const_nat]

theorem packOutcome_decodes (jvm : Jvm) (cls : Nat) (found : List Obj) (instances : ∀ o ∈ found, o.cls = cls)
    (tags : ∀ o ∈ found, o.tag < 2 ^ 64) (count : found.length < 2 ^ 31)
    (fits : 4 + found.length * (12 + (jvm.className cls).bytes.length) ≤ intMax) :
    (packOutcome jvm .succeeding false found).bind decodeSnapshot =
      some (found.map fun o => (o.tag, (jvm.className cls).bytes)) := by
  have named : found.map (fun o => (o.tag, jvm.nameOf o)) = found.map fun o => (o.tag, (jvm.className cls).bytes) :=
    List.map_congr_left fun o member => by simp [Jvm.nameOf, instances o member]
  have sizes := instanceSizes jvm cls found instances
  have decoded := decodeSnapshot_packSnapshot (found.map fun o => (o.tag, jvm.nameOf o)) (by simp; omega)
    (by simpa [Jvm.nameOf] using fun o member => ⟨tags o member, (jvm.className o.cls).fits.trans (by decide)⟩)
  simp only [List.map_map, Function.comp_def, List.length_map] at decoded
  rw [packOutcome_succeeding, if_pos (sizes ▸ fits), Option.some_bind, decoded, named]

theorem snapshotFound_succeeding (jvm : Jvm) (w : World) (cls : Nat)
    (small : (w.clearTags.heap.filter (admits (some cls))).length < 2 ^ 32) :
    (snapshotFound jvm .succeeding w cls).Perm
      ((tagFrom (some cls) w.epoch 1 w.clearTags.heap).filter (admits (some cls))) := by
  have grows : SnapshotAnswers.succeeding.grows = fun _ => true := rfl
  simpa only [snapshotFound, SnapshotAnswers.succeeding_clear, SnapshotAnswers.succeeding_tagging,
    SnapshotAnswers.succeeding_lookup, grows, if_true, true_and] using clearedPass_found w jvm (some cls) small

theorem snapshotFound_stored (jvm : Jvm) (w : World) (cls : Nat) (grows : Nat → Bool) {m : Nat}
    (small : (w.heap.filter (admits (some cls))).length < 2 ^ 32) (granted : ∀ i < m, capacityAfter i ≤ i → grows i = true)
    (stops : m = (w.heap.filter (admits (some cls))).length ∨
      m < (w.heap.filter (admits (some cls))).length ∧ capacityAfter m ≤ m ∧ grows m = false) :
    (snapshotFound jvm { SnapshotAnswers.succeeding with grows } w cls).Perm
      (((tagFrom (some cls) w.epoch 1 w.clearTags.heap).filter (admits (some cls))).take m) := by
  obtain ⟨heap, -, -⟩ := clearedPass_stored w (some cls) grows small granted stops
  simpa [snapshotFound, heap] using clearedPass_reported w jvm (some cls) grows small granted stops

/-- `nativeSnapshotBytes(C)` with every runtime call succeeding but the growths
of the tag buffer, on fewer than `2 ^ 30` instances whose encoding fits an
`int`, when the growth asked with `m` tags stored is the first refused, or `m`
is the number of instances and none is: the call tags the instances with the
counter values 1 to n in iteration order and leaves every other object
untagged, and its snapshot holds one entry for each of the first `m`
instances, with the instance's tag and the class name. -/
theorem snapshot_reports_stored (jvm : Jvm) (w : World) (name : String) {cls : Nat} (grows : Nat → Bool) {m : Nat}
    (resolves : jvm.findClass name = some cls) (classClass : jvm.findClass "java/lang/Class" ≠ none)
    (few : (w.heap.filter (admits (some cls))).length < 2 ^ 30)
    (fits : 4 + (w.heap.filter (admits (some cls))).length * (12 + (jvm.className cls).bytes.length) ≤ intMax)
    (granted : ∀ i < m, capacityAfter i ≤ i → grows i = true)
    (stops : m = (w.heap.filter (admits (some cls))).length ∨
      m < (w.heap.filter (admits (some cls))).length ∧ capacityAfter m ≤ m ∧ grows m = false) :
    let r := (nativeSnapshotBytes jvm { SnapshotAnswers.succeeding with grows } (some name)).run (.start w)
    let instances := r.2.world.heap.filter (admits (some cls))
    instances.map Obj.ref = (w.heap.filter (admits (some cls))).map Obj.ref ∧
      instances.map Obj.tag = (List.range' 1 instances.length).map (composeTag w.epoch) ∧
      (∀ o ∈ r.2.world.heap, o.tag ≠ 0 ↔ o.cls = cls) ∧
      ∃ entries, r.1.bind decodeSnapshot = some entries ∧
        entries.Perm ((instances.take m).map fun o => (o.tag, (jvm.className cls).bytes)) := by
  intro r instances
  have small : (w.heap.filter (admits (some cls))).length < 2 ^ 32 := by omega
  obtain ⟨heap, -, -⟩ := clearedPass_stored w (some cls) grows small granted stops
  have world : r.2.world.heap = tagFrom (some cls) w.epoch 1 w.clearTags.heap := by
    rw [← heap]
    simpa [World.clearAndTag, resolves] using
      congrArg World.heap (nativeSnapshotBytes_effect jvm { SnapshotAnswers.succeeding with grows } name (.start w)).1
  have refs : instances.map Obj.ref = (w.heap.filter (admits (some cls))).map Obj.ref := by
    rw [← clearedPass_refs w (some cls), ← world]
  have length : instances.length = (w.heap.filter (admits (some cls))).length := by
    simpa using congrArg List.length refs
  have tagged := tagFrom_tagged (some cls) w.epoch (World.clearTags_untagged w) (by rwa [clearedPass_length])
  have current : instances = (tagFrom (some cls) w.epoch 1 w.clearTags.heap).filter (admits (some cls)) := by
    show List.filter _ r.2.world.heap = _
    rw [world]
  refine ⟨refs, ?_, ?_, ?_⟩
  · rw [length, ← clearedPass_length, current, tagFrom_filter_admits _ _ 1 (World.clearTags_untagged w), retag_tags]
  · intro o member
    rw [world] at member
    exact (tagged o member).trans (by simp only [admits, Option.all_some, beq_iff_eq]; exact eq_comm)
  · have found := snapshotFound_stored jvm w cls grows small granted stops
    rw [← current] at found
    have packed : packOutcome jvm { SnapshotAnswers.succeeding with grows } false = packOutcome jvm .succeeding false :=
      rfl
    have result : r.1 = packOutcome jvm .succeeding false (snapshotFound jvm { SnapshotAnswers.succeeding with grows } w cls) := by
      simp only [r]
      rw [nativeSnapshotBytes_result _ _ _ _ rfl, packed]
      simp [resolves, classClass]
    have members : ∀ o ∈ snapshotFound jvm { SnapshotAnswers.succeeding with grows } w cls, o ∈ instances :=
      fun o member => List.mem_of_mem_take (found.subset member)
    have count : (snapshotFound jvm { SnapshotAnswers.succeeding with grows } w cls).length ≤
        (w.heap.filter (admits (some cls))).length := by
      rw [found.length_eq, ← length]
      exact List.length_take_le' _ _
    refine ⟨_, ?_, found.map _⟩
    show r.1.bind decodeSnapshot = _
    rw [result]
    refine packOutcome_decodes jvm cls _ (fun o member => ?_) (fun o member => ?_) (by omega)
      ((Nat.add_le_add_left (Nat.mul_le_mul_right _ count) 4).trans fits)
    · exact (by simpa [admits] using (List.mem_filter.mp (members o member)).2 : cls = o.cls).symm
    · have issued : o.tag ∈ instances.map Obj.tag := List.mem_map_of_mem _ (members o member)
      rw [current, tagFrom_filter_admits _ _ 1 (World.clearTags_untagged w), retag_tags, List.mem_map] at issued
      obtain ⟨k, -, issued⟩ := issued
      exact issued ▸ composeTag_lt w.epoch k

theorem Jni.walkTail_result (jvm : Jvm) (answers : WalkAnswers) (colTags : Option Handle) (lookup : Lookup)
    (j : Jni) :
    ((Jni.walkTail jvm answers colTags lookup).run j).1 =
      if jvm.findClass "java/lang/Object" ≠ none ∧ answers.objectArray then some (lookup.found.map Prod.snd)
      else none := by
  cases objectClass : jvm.findClass "java/lang/Object" <;> cases array : answers.objectArray <;>
    simp [Jni.walkTail, Jni.findClass, objectClass, array, Jni.newLocalRef]

theorem nativeWalkHeap_result (jvm : Jvm) (answers : WalkAnswers) (s : Native) :
    let pass := (if answers.clear then s.world.clearTags else s.world).resetCounter.tagPass none answers.grows
    ((nativeWalkHeap jvm answers).run s).1 =
      if answers.tagging ∧ 0 < pass.2.1.count ∧ answers.lookup ∧ 0 ∉ pass.2.1.tags ∧
          jvm.findClass "java/lang/Object" ≠ none ∧ answers.objectArray then
        some (jvm.objectsWithTags pass.1.heap pass.2.1.tags)
      else none := by
  simp only [nativeWalkHeap, StateT.run_bind, clearAllTags_run, resetLocalCounter_run, tagObjects_run, heapNow_run,
    liftJni_run, Id.bind_eq]
  generalize (if answers.clear then s.world.clearTags else s.world).resetCounter.tagPass none answers.grows = p
  cases tagging : answers.tagging
  · simp [TagCollector.empty, Jni.free]
  by_cases count : p.2.1.count = 0
  · simp [count]
  cases lookup : answers.lookup <;> by_cases zero : 0 ∈ p.2.1.tags <;>
    simp [count, lookup, zero, Jni.getObjectsWithTags, Jni.walkTail_result, Nat.pos_of_ne_zero count]

@[simp] theorem filter_admits_none (heap : List Obj) : heap.filter (admits none) = heap :=
  List.filter_eq_self.mpr fun _ _ => rfl

/-- `nativeWalkHeap` with every runtime call succeeding but the growths of the
tag buffer, on fewer than `2 ^ 30` objects, when the growth asked with `m` tags
stored is the first refused, or `m` is the number of objects and none is: the
call leaves every object with a distinct nonzero tag, and returns the first `m`
objects, each once, or `NULL` when `m = 0`. -/
theorem walkHeap_reports_stored (jvm : Jvm) (w : World) (grows : Nat → Bool) {m : Nat} (few : w.heap.length < 2 ^ 30)
    (objectClass : jvm.findClass "java/lang/Object" ≠ none) (granted : ∀ i < m, capacityAfter i ≤ i → grows i = true)
    (stops : m = w.heap.length ∨ m < w.heap.length ∧ capacityAfter m ≤ m ∧ grows m = false) :
    let r := (nativeWalkHeap jvm { WalkAnswers.succeeding with grows }).run (.start w)
    r.2.world.heap.map Obj.ref = w.heap.map Obj.ref ∧ (r.2.world.heap.map Obj.tag).Nodup ∧
      (∀ o ∈ r.2.world.heap, o.tag ≠ 0) ∧ (r.1 = none ↔ m = 0) ∧
      ∀ objs, r.1 = some objs → objs.Perm (r.2.world.heap.take m) := by
  intro r
  have small : (w.heap.filter (admits none)).length < 2 ^ 32 := by simp only [filter_admits_none]; omega
  have stops' : m = (w.heap.filter (admits none)).length ∨
      m < (w.heap.filter (admits none)).length ∧ capacityAfter m ≤ m ∧ grows m = false := by
    simpa only [filter_admits_none] using stops
  obtain ⟨heap, col, -⟩ := clearedPass_stored w none grows small granted stops'
  have reported := clearedPass_reported w jvm none grows small granted stops'
  have world : r.2.world.heap = tagFrom none w.epoch 1 w.clearTags.heap := by
    rw [← heap]
    simpa [World.clearAndTag] using
      congrArg World.heap (nativeWalkHeap_effect jvm { WalkAnswers.succeeding with grows } (.start w)).1
  have length : w.clearTags.heap.length = w.heap.length := by simpa using clearedPass_length w none
  have tagged := tagFrom_tagged none w.epoch (World.clearTags_untagged w) (by simpa [length] using small)
  have retagged := tagFrom_filter_admits none w.epoch 1 (World.clearTags_untagged w)
  simp only [filter_admits_none, length] at retagged
  have within : m < 2 ^ 32 := by omega
  have result : r.1 = if 0 < m then
      some (jvm.objectsWithTags (w.clearTags.resetCounter.tagPass none grows).1.heap
        ((List.range' 1 m).map (composeTag w.epoch))) else none := by
    simp only [r]
    rw [nativeWalkHeap_result]
    simp [col, objectClass, range_tags_nonzero w.epoch within]
  refine ⟨?_, ?_, fun o member => (tagged o (world ▸ member)).mpr rfl, ?_, fun objs returned => ?_⟩
  · rw [world]
    simpa only [List.map_map] using congrArg (List.map Prod.fst) ((tagFrom_shape none w.epoch 1 _).trans (clearTags_shape w))
  · rw [world, retagged, retag_tags]
    exact composeTag_range_nodup w.epoch (by omega)
  · by_cases none : m = 0 <;> simp [result, none, Nat.pos_of_ne_zero]
  · by_cases none : m = 0
    · simp [result, none] at returned
    rw [result, if_pos (Nat.pos_of_ne_zero none), Option.some.injEq] at returned
    rw [← returned, world, ← heap]
    simpa [col, Nat.pos_of_ne_zero none, range_tags_nonzero w.epoch within] using reported

/-- The clearing calls from any state: a failure-free `nativeSnapshotBytes(C)`
whose encoding fits an `int` reports one entry per instance of `C` with its tag
and name, the tags being the counter values 1 to n in iteration order, and
leaves only those instances tagged; a failure-free `nativeWalkHeap` on fewer
than `2 ^ 30` objects returns every object once (`NULL` on an empty heap) and
leaves every object with a distinct nonzero tag. -/
theorem clearing_calls_report_complete_pass (jvm : Jvm) :
    (∀ (w : World) (name : String) (cls : Nat), jvm.findClass name = some cls →
      jvm.findClass "java/lang/Class" ≠ none → (w.heap.filter (admits (some cls))).length < 2 ^ 30 →
      4 + (w.heap.filter (admits (some cls))).length * (12 + (jvm.className cls).bytes.length) ≤ intMax →
      let r := (nativeSnapshotBytes jvm .succeeding (some name)).run (.start w)
      let instances := r.2.world.heap.filter (admits (some cls))
      instances.map Obj.ref = (w.heap.filter (admits (some cls))).map Obj.ref ∧
        instances.map Obj.tag = (List.range' 1 instances.length).map (composeTag w.epoch) ∧
        (∀ o ∈ r.2.world.heap, o.tag ≠ 0 ↔ o.cls = cls) ∧
        ∃ entries, r.1.bind decodeSnapshot = some entries ∧
          entries.Perm (instances.map fun o => (o.tag, (jvm.className cls).bytes))) ∧
    ∀ w : World, w.heap.length < 2 ^ 30 → jvm.findClass "java/lang/Object" ≠ none →
      let r := (nativeWalkHeap jvm .succeeding).run (.start w)
      r.2.world.heap.map Obj.ref = w.heap.map Obj.ref ∧ (r.2.world.heap.map Obj.tag).Nodup ∧
        (∀ o ∈ r.2.world.heap, o.tag ≠ 0) ∧ (r.1 = none ↔ w.heap = []) ∧
        ∀ objs, r.1 = some objs → objs.Perm r.2.world.heap := by
  refine ⟨fun w name cls resolves classClass few fits => ?_, fun w few objectClass => ?_⟩
  · obtain ⟨refs, tags, tagged, entries, decoded, perm⟩ :=
      snapshot_reports_stored jvm w name (fun _ => true) resolves classClass few fits (fun _ _ _ => rfl) (.inl rfl)
    have all : ∀ l : List Obj, l.map Obj.ref = (w.heap.filter (admits (some cls))).map Obj.ref →
        l.take (w.heap.filter (admits (some cls))).length = l := fun l same =>
      List.take_of_length_le (by simpa using (congrArg List.length same).le)
    exact ⟨refs, tags, tagged, entries, decoded, by rwa [all _ refs] at perm⟩
  · obtain ⟨refs, distinct, nonzero, none, reports⟩ :=
      walkHeap_reports_stored jvm w (fun _ => true) few objectClass (fun _ _ _ => rfl) (.inl rfl)
    have length : ∀ l : List Obj, l.map Obj.ref = w.heap.map Obj.ref → l.take w.heap.length = l := fun l same =>
      List.take_of_length_le (by simpa using (congrArg List.length same).le)
    exact ⟨refs, distinct, nonzero, none.trans List.length_eq_zero,
      fun objs returned => by simpa only [length _ refs] using reports objs returned⟩

/-- Both parts applied to a heap holding three instances of `X` among two of `Y`,
with stale tags from earlier passes on four of the five objects. -/
theorem clearing_calls_report_complete_pass_sample :
    (∃ entries, ((nativeSnapshotBytes sampleJvm .succeeding (some "X")).run
        (.start (World.init [⟨1, 1, 7⟩, ⟨2, 2, 0⟩, ⟨3, 1, 0⟩, ⟨4, 2, 9⟩, ⟨5, 1, composeTag 1 2⟩]))).1.bind decodeSnapshot =
        some entries ∧ entries.length = 3) ∧
      ∃ objs, ((nativeWalkHeap sampleJvm .succeeding).run
        (.start (World.init [⟨1, 1, 7⟩, ⟨2, 2, 0⟩, ⟨3, 1, 0⟩, ⟨4, 2, 9⟩, ⟨5, 1, composeTag 1 2⟩]))).1 = some objs ∧
        objs.length = 5 := by
  obtain ⟨refs, -, -, entries, decoded, perm⟩ := (clearing_calls_report_complete_pass sampleJvm).1
    (World.init [⟨1, 1, 7⟩, ⟨2, 2, 0⟩, ⟨3, 1, 0⟩, ⟨4, 2, 9⟩, ⟨5, 1, composeTag 1 2⟩]) "X" 1 (by decide) (by decide)
    (by decide) (by decide)
  obtain ⟨heap, -, -, empty, reported⟩ := (clearing_calls_report_complete_pass sampleJvm).2
    (World.init [⟨1, 1, 7⟩, ⟨2, 2, 0⟩, ⟨3, 1, 0⟩, ⟨4, 2, 9⟩, ⟨5, 1, composeTag 1 2⟩]) (by decide) (by decide)
  refine ⟨⟨entries, decoded, ?_⟩, ?_⟩
  · rw [perm.length_eq, List.length_map]
    simpa only [List.length_map] using congrArg List.length refs
  · obtain ⟨objs, returned⟩ := Option.ne_none_iff_exists'.mp fun none => nomatch empty.mp none
    exact ⟨objs, returned, by simpa only [(reported objs returned).length_eq, List.length_map] using congrArg List.length heap⟩

/-- `nativeSnapshotBytes(X)` on `2 ^ 28` instances of `X`, every runtime call
succeeding: the size check refuses the 13-byte entries and the call returns
`NULL`. -/
theorem nativeSnapshotBytes_largeClass_null :
    let w := World.init ((List.range (2 ^ 28)).map fun i => ⟨i, 1, 0⟩)
    (w.heap.filter (admits (some 1))).length < 2 ^ 30 ∧
      ((nativeSnapshotBytes sampleJvm .succeeding (some "X")).run (.start w)).1 = none := by
  intro w
  have all : w.heap.filter (admits (some 1)) = w.heap := List.filter_eq_self.mpr (by simp [w, World.init, admits])
  have count : (w.heap.filter (admits (some 1))).length = 2 ^ 28 := by
    rw [all]
    simp [w, World.init]
  refine ⟨by omega, ?_⟩
  have small : (w.clearTags.heap.filter (admits (some 1))).length < 2 ^ 32 := by
    rw [clearedPass_length, count]; omega
  have found := snapshotFound_succeeding sampleJvm w 1 small
  have members : ∀ o ∈ snapshotFound sampleJvm .succeeding w 1, o.cls = 1 := fun o member =>
    (by simpa [admits] using (List.mem_filter.mp (found.subset member)).2 : 1 = o.cls).symm
  have length : (snapshotFound sampleJvm .succeeding w 1).length = 2 ^ 28 := by
    rw [found.length_eq, tagFrom_filter_admits _ _ 1 (World.clearTags_untagged w), retag_length, clearedPass_length,
      count]
  have resolves : sampleJvm.findClass "X" = some 1 := by decide
  have classClass : sampleJvm.findClass "java/lang/Class" ≠ none := by decide
  rw [nativeSnapshotBytes_result _ _ _ _ rfl]
  simp only [SnapshotAnswers.succeeding_classChars, if_true, Native.start_world, resolves, classClass]
  have named : (sampleJvm.className 1).bytes.length = 1 := rfl
  rw [packOutcome_succeeding, instanceSizes sampleJvm 1 _ members, length, named]
  simp [intMax]

theorem snapshotFound_failed (jvm : Jvm) (answers : SnapshotAnswers) (w : World) (cls : Nat)
    (fails : answers.tagging = false ∨ answers.grows 0 = false ∨ answers.lookup = false) :
    snapshotFound jvm answers w cls = [] := by
  rcases fails with tagging | grows | lookup
  · simp [snapshotFound, tagging]
  · simp [snapshotFound, World.tagPass_firstAppendFails _ _ _ grows]
  · simp [snapshotFound, lookup]

/-- With the class resolved and the other runtime calls succeeding, a failed
tagging iteration, a first `tag_add` that cannot grow the buffer or a failed
`GetObjectsWithTags` is not reported: `nativeSnapshotBytes` returns the
zero-object snapshot, while `nativeWalkHeap` returns `NULL`. The answers are
those of a call in which every runtime call succeeds but these three. -/
theorem failed_pass_reported_as_empty (jvm : Jvm) (w : World) (name : String) {cls : Nat}
    (resolves : jvm.findClass name = some cls) (classClass : jvm.findClass "java/lang/Class" ≠ none)
    (tagging lookup : Bool) (grows : Nat → Bool) (fails : tagging = false ∨ grows 0 = false ∨ lookup = false) :
    ((nativeSnapshotBytes jvm ⟨true, true, tagging, grows, lookup, true, true, true, fun _ => .succeeding, true, true⟩
        (some name)).run (.start w)).1 = some [0, 0, 0, 0] ∧
      ((nativeWalkHeap jvm ⟨true, tagging, grows, lookup, true⟩).run (.start w)).1 = none := by
  have empty : snapshotFound jvm ⟨true, true, tagging, grows, lookup, true, true, true, fun _ => .succeeding, true, true⟩
      w cls = [] := snapshotFound_failed _ _ _ _ fails
  constructor
  · rw [nativeSnapshotBytes_result _ _ _ _ rfl]
    simp [resolves, classClass, empty, packOutcome, loopOutcome, packSnapshot, be32, lowByte, intMax]
  · rw [nativeWalkHeap_result]
    rcases fails with failed | failed | failed
    · simp [failed]
    · simp [World.tagPass_firstAppendFails w.clearTags.resetCounter none grows failed]
    · simp [failed]

end HeapAgent
