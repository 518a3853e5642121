import HeapAgent.Heap
import Mathlib.Data.List.Nodup

/-! What one `IterateThroughHeap` does to the heap: it rewrites tags and nothing
else, and every tag it leaves differing from the old one was written by the
callback. `heap_tagging_cb` never answers with the `JVMTI_VISIT_ABORT` bit, so
a tagging pass visits the whole heap whatever `realloc` answers: it writes the
consecutive tags of the counter on every untagged object it admits, and its
collector takes them up to the first refused growth. -/

namespace HeapAgent

/-- An object's identity and class, which no iteration changes. -/
def Obj.shape (o : Obj) : Nat × Nat := (o.ref, o.cls)

@[simp] theorem Obj.store_shape (o : Obj) (write : Option Nat) : (o.store write).shape = o.shape := by
  cases write <;> rfl

@[simp] theorem Obj.store_ref (o : Obj) (write : Option Nat) : (o.store write).ref = o.ref := by
  cases write <;> rfl

section Iteration

variable {σ : Type} (klass : Option Nat) (callback : σ → Nat → Option Nat × σ × Nat)

theorem iterateThroughHeap_shape (heap : List Obj) (state : σ) :
    (iterateThroughHeap klass callback heap state).1.map Obj.shape = heap.map Obj.shape := by
  induction heap generalizing state with
  | nil => rfl
  | cons o rest ih =>
    unfold iterateThroughHeap
    split
    · generalize callback state o.tag = answer
      rcases answer with ⟨write, state', visit⟩
      by_cases go : continues visit <;> simp [go, ih]
    · simp [ih]

theorem iterateThroughHeap_refs (heap : List Obj) (state : σ) :
    (iterateThroughHeap klass callback heap state).1.map Obj.ref = heap.map Obj.ref := by
  have shape := congrArg (List.map Prod.fst) (iterateThroughHeap_shape klass callback heap state)
  simpa only [List.map_map] using shape

theorem mem_iterateThroughHeap {heap : List Obj} {state : σ} {o' : Obj}
    (member : o' ∈ (iterateThroughHeap klass callback heap state).1) :
    o' ∈ heap ∨ (o'.ref, o'.tag) ∈ (iterateThroughHeap klass callback heap state).2.2 := by
  induction heap generalizing state with
  | nil => exact absurd member (List.not_mem_nil _)
  | cons o rest ih =>
    unfold iterateThroughHeap at member ⊢
    by_cases admitted : admits klass o <;> simp only [admitted, if_true, if_false] at member ⊢
    · generalize callback state o.tag = answer at member ⊢
      rcases answer with ⟨write, state', visit⟩
      have stored : o.store write = o ∨ (o.ref, (o.store write).tag) ∈ (write.map (o.ref, ·)).toList := by
        cases write <;> simp [Obj.store]
      by_cases go : continues visit <;>
        simp only [go, if_true, Bool.false_eq_true, if_false, List.mem_cons, List.mem_append] at member ⊢
      · rcases member with rfl | later
        · rcases stored with same | wrote
          · exact .inl (.inl same)
          · exact .inr (.inl (by simpa using wrote))
        · rcases ih later with old | wrote
          · exact .inl (.inr old)
          · exact .inr (.inr wrote)
      · rcases member with rfl | later
        · rcases stored with same | wrote
          · exact .inl (.inl same)
          · exact .inr (by simpa using wrote)
        · exact .inl (.inr later)
    · simp only [List.mem_cons, Bool.false_eq_true, if_false] at member ⊢
      rcases member with rfl | later
      · exact .inl (.inl rfl)
      · rcases ih later with old | wrote
        · exact .inl (.inr old)
        · exact .inr wrote

end Iteration

section Tagging

variable (klass : Option Nat) (epoch : Nat) (grows : Nat → Bool)

@[simp] theorem admits_retag (o : Obj) (tag : Nat) : admits klass { o with tag } = admits klass o := rfl

/-- Whether a pass over `klass` tags `o`: it admits `o` and finds it untagged. -/
def fresh (o : Obj) : Bool := admits klass o && o.tag == 0

/-- Objects given the tags of consecutive counter values from `counter` on. -/
def retag (counter : Nat) : List Obj → List Obj
  | [] => []
  | o :: rest => { o with tag := composeTag epoch counter } :: retag (counter + 1) rest

/-- The heap a tagging pass leaves: the fresh objects carry the tags of
consecutive counter values from `counter` on, in iteration order, and the
others are left as they were. -/
def tagFrom (counter : Nat) : List Obj → List Obj
  | [] => []
  | o :: rest =>
    if fresh klass o then { o with tag := composeTag epoch counter } :: tagFrom (counter + 1) rest
    else o :: tagFrom counter rest

/-- One object of a tagging pass. `heap_tagging_cb` answers `JVMTI_ITERATION_ABORT`
on a failed `tag_add` and `JVMTI_ITERATION_CONTINUE` otherwise, neither with the
`JVMTI_VISIT_ABORT` bit, so the pass goes on to the rest of the heap: with the
object tagged, the counter moved and the tag offered to the collector when the
object is fresh, and with nothing changed otherwise. -/
theorem iterateThroughHeap_tagging_cons (o : Obj) (rest : List Obj) (state : Tagging) :
    iterateThroughHeap klass (heapTaggingCb epoch grows) (o :: rest) state =
      if fresh klass o then
        let r := iterateThroughHeap klass (heapTaggingCb epoch grows) rest
          ⟨state.counter + 1, (tagAdd (grows state.col.count) state.col (composeTag epoch state.counter)).2⟩
        ({ o with tag := composeTag epoch state.counter } :: r.1, r.2.1, (o.ref, composeTag epoch state.counter) :: r.2.2)
      else
        let r := iterateThroughHeap klass (heapTaggingCb epoch grows) rest state
        (o :: r.1, r.2) := by
  by_cases tagged : fresh klass o
  · have ⟨zero, admitted⟩ : o.tag = 0 ∧ admits klass o = true := by simpa [fresh, and_comm] using tagged
    simp only [iterateThroughHeap, heapTaggingCb, admitted, zero, tagged, if_true, ne_eq, not_true_eq_false, if_false]
    generalize tagAdd (grows state.col.count) state.col (composeTag epoch state.counter) = added
    obtain ⟨_ | _, col⟩ := added <;> simp [Obj.store]
  · by_cases admitted : admits klass o
    · have tag : o.tag ≠ 0 := by simpa [fresh, admitted] using tagged
      simp [iterateThroughHeap, heapTaggingCb, admitted, tag, tagged, Obj.store]
    · simp [iterateThroughHeap, admitted, tagged]

/-- A tagging pass, whatever `realloc` answers: it leaves `tagFrom`, moves the
counter past the tags of the fresh objects, writes exactly those tags, and
offers each of them to the collector in turn. -/
theorem iterateThroughHeap_tagging (heap : List Obj) (state : Tagging) :
    iterateThroughHeap klass (heapTaggingCb epoch grows) heap state =
      (tagFrom klass epoch state.counter heap,
        ⟨state.counter + (heap.filter (fresh klass)).length,
          tagAddEach grows state.col ((List.range' state.counter (heap.filter (fresh klass)).length).map (composeTag epoch))⟩,
        (retag epoch state.counter (heap.filter (fresh klass))).map fun o => (o.ref, o.tag)) := by
  induction heap generalizing state with
  | nil => rfl
  | cons o rest ih =>
    rw [iterateThroughHeap_tagging_cons]
    by_cases tagged : fresh klass o
    · simp [tagged, ih, tagFrom, retag, List.range'_succ, tagAddEach, Nat.add_assoc, Nat.add_comm 1]
    · simp [tagged, ih, tagFrom]

theorem retag_tags (counter : Nat) (objs : List Obj) :
    (retag epoch counter objs).map Obj.tag = (List.range' counter objs.length).map (composeTag epoch) := by
  induction objs generalizing counter with
  | nil => rfl
  | cons o rest ih => simp [retag, ih, List.range'_succ]

@[simp] theorem retag_length (counter : Nat) (objs : List Obj) : (retag epoch counter objs).length = objs.length := by
  induction objs generalizing counter with
  | nil => rfl
  | cons o rest ih => simp [retag, ih]

theorem retag_shape (counter : Nat) (objs : List Obj) : (retag epoch counter objs).map Obj.shape = objs.map Obj.shape := by
  induction objs generalizing counter with
  | nil => rfl
  | cons o rest ih => simp [retag, ih, Obj.shape]

@[simp] theorem retag_refs (counter : Nat) (objs : List Obj) : (retag epoch counter objs).map Obj.ref = objs.map Obj.ref := by
  induction objs generalizing counter with
  | nil => rfl
  | cons o rest ih => simp [retag, ih]

theorem mem_retag {counter : Nat} {objs : List Obj} {o : Obj} (member : o ∈ retag epoch counter objs) :
    ∃ k, counter ≤ k ∧ k < counter + objs.length ∧ o.tag = composeTag epoch k := by
  have issued : o.tag ∈ (retag epoch counter objs).map Obj.tag := List.mem_map_of_mem _ member
  rw [retag_tags, List.mem_map] at issued
  obtain ⟨k, range, same⟩ := issued
  exact ⟨k, (List.mem_range'_1.mp range).1, (List.mem_range'_1.mp range).2, same.symm⟩

theorem retag_filter_range (counter m : Nat) (objs : List Obj) (fits : counter + objs.length ≤ 2 ^ 32) :
    (retag epoch counter objs).filter (fun o => decide (o.tag ∈ (List.range' counter m).map (composeTag epoch))) =
      (retag epoch counter objs).take m := by
  induction objs generalizing counter m with
  | nil => simp [retag]
  | cons o rest ih =>
    cases m with
    | zero => simp
    | succ m =>
      have later : ∀ x ∈ retag epoch (counter + 1) rest,
          decide (x.tag ∈ (List.range' counter (m + 1)).map (composeTag epoch)) =
            decide (x.tag ∈ (List.range' (counter + 1) m).map (composeTag epoch)) := by
        intro x member
        obtain ⟨k, low, high, issued⟩ := mem_retag epoch member
        have other : composeTag epoch k ≠ composeTag epoch counter := fun same => by
          have := (composeTag_inj.mp same).2
          simp only [List.length_cons] at fits
          rw [Nat.mod_eq_of_lt (by omega), Nat.mod_eq_of_lt (by omega)] at this
          omega
        simp [List.range'_succ, issued, other]
      rw [retag, List.filter_cons_of_pos (by simp [List.range'_succ]), List.filter_congr later,
        ih (counter + 1) m (by simp only [List.length_cons] at fits; omega), List.take_succ_cons]

theorem tagFrom_shape (counter : Nat) (heap : List Obj) :
    (tagFrom klass epoch counter heap).map Obj.shape = heap.map Obj.shape := by
  induction heap generalizing counter with
  | nil => rfl
  | cons o rest ih => by_cases tagged : fresh klass o <;> simp [tagFrom, tagged, ih, Obj.shape]

theorem tagFrom_filter_mem (issued : List Nat) (counter : Nat) (heap : List Obj)
    (stale : ∀ o ∈ heap, fresh klass o = false → o.tag ∉ issued) :
    (tagFrom klass epoch counter heap).filter (fun o => decide (o.tag ∈ issued)) =
      (retag epoch counter (heap.filter (fresh klass))).filter (fun o => decide (o.tag ∈ issued)) := by
  induction heap generalizing counter with
  | nil => rfl
  | cons o rest ih =>
    simp only [List.mem_cons, forall_eq_or_imp] at stale
    by_cases tagged : fresh klass o
    · simp [tagFrom, tagged, retag, List.filter_cons, ih (counter + 1) stale.2]
    · simp [tagFrom, tagged, stale.1 (by simpa using tagged), ih counter stale.2]

theorem tagFrom_filter_issued (issued : List Nat) (counter : Nat) (heap : List Obj)
    (covers : ∀ k, counter ≤ k → k < counter + (heap.filter (fresh klass)).length → composeTag epoch k ∈ issued)
    (stale : ∀ o ∈ heap, fresh klass o = false → o.tag ∉ issued) :
    (tagFrom klass epoch counter heap).filter (fun o => decide (o.tag ∈ issued)) =
      retag epoch counter (heap.filter (fresh klass)) := by
  rw [tagFrom_filter_mem klass epoch issued counter heap stale, List.filter_eq_self]
  intro o member
  obtain ⟨k, low, high, issue⟩ := mem_retag epoch member
  simpa [issue] using covers k low high

theorem tagFrom_filter_stored (m counter : Nat) (heap : List Obj)
    (fits : counter + (heap.filter (fresh klass)).length ≤ 2 ^ 32)
    (stale : ∀ o ∈ heap, fresh klass o = false → o.tag ∉ (List.range' counter m).map (composeTag epoch)) :
    (tagFrom klass epoch counter heap).filter (fun o => decide (o.tag ∈ (List.range' counter m).map (composeTag epoch))) =
      (retag epoch counter (heap.filter (fresh klass))).take m := by
  rw [tagFrom_filter_mem klass epoch _ counter heap stale, retag_filter_range epoch counter m _ fits]

theorem tagFrom_filter_admits (counter : Nat) {heap : List Obj} (untagged : ∀ o ∈ heap, o.tag = 0) :
    (tagFrom klass epoch counter heap).filter (admits klass) = retag epoch counter (heap.filter (admits klass)) := by
  induction heap generalizing counter with
  | nil => rfl
  | cons o rest ih =>
    simp only [List.mem_cons, forall_eq_or_imp] at untagged
    by_cases admitted : admits klass o <;>
      simp [tagFrom, fresh, admitted, untagged.1, retag, ih _ untagged.2]

theorem mem_tagFrom_skipped {counter : Nat} {heap : List Obj} {o : Obj} (member : o ∈ tagFrom klass epoch counter heap)
    (skipped : admits klass o = false) : o ∈ heap := by
  induction heap generalizing counter with
  | nil => exact absurd member (List.not_mem_nil _)
  | cons o' rest ih =>
    by_cases tagged : fresh klass o' <;>
      simp only [tagFrom, tagged, if_true, if_false, Bool.false_eq_true, List.mem_cons] at member
    · rcases member with rfl | later
      · simp [fresh] at tagged; simp [tagged.1] at skipped
      · exact .tail _ (ih later)
    · rcases member with rfl | later
      · exact .head _
      · exact .tail _ (ih later)

end Tagging

theorem clearTagCb_untagged (heap : List Obj) : ∀ o ∈ (iterateThroughHeap none clearTagCb heap ()).1, o.tag = 0 := by
  induction heap with
  | nil => simp [iterateThroughHeap]
  | cons o rest ih =>
    simp only [iterateThroughHeap, admits, Option.all_none, if_true, clearTagCb, continues_iterationContinue,
      List.mem_cons, forall_eq_or_imp]
    refine ⟨?_, ih⟩
    by_cases zero : o.tag = 0 <;> simp [zero, Obj.store]

theorem composeTag_range_nodup (epoch : Nat) {start count : Nat} (fits : start + count ≤ 2 ^ 32) :
    ((List.range' start count).map (composeTag epoch)).Nodup := by
  refine (List.nodup_range' _ _).map_on fun k member k' member' same => ?_
  rw [List.mem_range'_1] at member member'
  have := (composeTag_inj.mp same).2
  rwa [Nat.mod_eq_of_lt (by omega), Nat.mod_eq_of_lt (by omega)] at this

namespace World

variable (w : World) (klass : Option Nat) (grows : Nat → Bool)

theorem clearTags_untagged : ∀ o ∈ w.clearTags.heap, o.tag = 0 := clearTagCb_untagged w.heap

theorem clearTags_refs : w.clearTags.heap.map Obj.ref = w.heap.map Obj.ref :=
  iterateThroughHeap_refs none clearTagCb w.heap ()

theorem tagPass_eq :
    w.tagPass klass grows =
      ({ w with
          heap := tagFrom klass w.epoch w.counter w.heap
          counter := w.counter + (w.heap.filter (fresh klass)).length },
        tagAddEach grows .empty ((List.range' w.counter (w.heap.filter (fresh klass)).length).map (composeTag w.epoch)),
        (retag w.epoch w.counter (w.heap.filter (fresh klass))).map fun o => (o.ref, o.tag)) := by
  simp [tagPass, iterateThroughHeap_tagging]

theorem tagPass_refs : (w.tagPass klass grows).1.heap.map Obj.ref = w.heap.map Obj.ref :=
  iterateThroughHeap_refs klass _ w.heap _

theorem mem_tagPass {o' : Obj} (member : o' ∈ (w.tagPass klass grows).1.heap) :
    o' ∈ w.heap ∨ (o'.ref, o'.tag) ∈ (w.tagPass klass grows).2.2 :=
  mem_iterateThroughHeap klass _ member

theorem tagPass_writes :
    (w.tagPass klass grows).2.2.map Prod.snd =
        (List.range' w.counter (w.tagPass klass grows).2.2.length).map (composeTag w.epoch) ∧
      (w.tagPass klass grows).1.counter = w.counter + (w.tagPass klass grows).2.2.length := by
  rw [tagPass_eq]
  simp [Function.comp_def, ← retag_tags w.epoch w.counter]

theorem mem_tagPass_writes {write : Nat × Nat} (member : write ∈ (w.tagPass klass grows).2.2) :
    ∃ k, w.counter ≤ k ∧ k < (w.tagPass klass grows).1.counter ∧ write.2 = composeTag w.epoch k := by
  have ⟨tags, counter⟩ := tagPass_writes w klass grows
  have issued : write.2 ∈ (w.tagPass klass grows).2.2.map Prod.snd := List.mem_map_of_mem _ member
  rw [tags, List.mem_map] at issued
  obtain ⟨k, range, issued⟩ := issued
  rw [List.mem_range'_1] at range
  exact ⟨k, range.1, by omega, issued.symm⟩

theorem tagPass_nodup (fits : w.counter + (w.tagPass klass grows).2.2.length ≤ 2 ^ 32) :
    ((w.tagPass klass grows).2.2.map Prod.snd).Nodup := by
  rw [(tagPass_writes w klass grows).1]
  exact composeTag_range_nodup w.epoch fits

/-- The collector of a pass whose growths below `m` tags are granted, `m` being
the number of fresh objects or the count at a refused growth: it holds the
first `m` tags of the pass. -/
theorem tagPass_stops {m : Nat} (granted : ∀ i < m, capacityAfter i ≤ i → grows i = true)
    (stops : m = (w.heap.filter (fresh klass)).length ∨
      m < (w.heap.filter (fresh klass)).length ∧ capacityAfter m ≤ m ∧ grows m = false) :
    (w.tagPass klass grows).2.1 =
      .reached ((List.range' w.counter m).map (composeTag w.epoch)) (decide (m < (w.heap.filter (fresh klass)).length)) := by
  have front : (List.range' w.counter (w.heap.filter (fresh klass)).length).take m = List.range' w.counter m := by
    obtain ⟨k, total⟩ := Nat.exists_eq_add_of_le (show m ≤ (w.heap.filter (fresh klass)).length by omega)
    rw [total, Nat.add_comm, ← List.range'_append_1, List.take_left' (List.length_range' _ _ _)]
  rw [tagPass_eq, tagAddEach_stops grows _ granted (by simpa using stops)]
  simp [← List.map_take, front]

theorem tagPass_complete :
    (w.tagPass klass fun _ => true).1.heap = tagFrom klass w.epoch w.counter w.heap ∧
      (w.tagPass klass fun _ => true).2.1.tags =
        (List.range' w.counter (w.heap.filter (fresh klass)).length).map (composeTag w.epoch) ∧
      (w.tagPass klass fun _ => true).2.1.count = (w.heap.filter (fresh klass)).length := by
  rw [tagPass_stops w klass _ (fun _ _ _ => rfl) (.inl rfl), tagPass_eq]
  simp

theorem tagPass_firstAppendFails (fails : grows 0 = false) : (w.tagPass klass grows).2.1.count = 0 := by
  by_cases none : (w.heap.filter (fresh klass)).length = 0
  · rw [tagPass_stops w klass grows (fun _ outside => absurd outside (Nat.not_lt_zero _)) (.inl none.symm)]
    rfl
  · rw [tagPass_stops w klass grows (fun _ outside => absurd outside (Nat.not_lt_zero _))
      (.inr ⟨Nat.pos_of_ne_zero none, le_rfl, fails⟩)]
    rfl

theorem tagPass_nonzero (pos : 0 < w.epoch) (fits : w.epoch < 2 ^ 32) :
    ∀ write ∈ (w.tagPass klass grows).2.2, write.2 ≠ 0 := by
  intro write member
  obtain ⟨k, -, -, issued⟩ := mem_tagPass_writes w klass grows member
  rw [issued]
  exact composeTag_ne_zero k (by omega)

end World

/-- Two untagged instances of class 1, every `realloc` refused: the first
`tag_add` fails and `heap_tagging_cb` answers `JVMTI_ITERATION_ABORT`, which has
no `JVMTI_VISIT_ABORT` bit, so the iteration goes on and tags the second
instance too, leaving the counter at 3 and the collector empty and failed. -/
theorem refused_append_keeps_tagging :
    (heapTaggingCb 1 (fun _ => false) ⟨1, .empty⟩ 0).2.2 = jvmtiIterationAbort ∧ continues jvmtiIterationAbort = true ∧
      iterateThroughHeap (some 1) (heapTaggingCb 1 fun _ => false) [⟨1, 1, 0⟩, ⟨2, 1, 0⟩] ⟨1, .empty⟩ =
        ([⟨1, 1, composeTag 1 1⟩, ⟨2, 1, composeTag 1 2⟩], ⟨3, ⟨[], 0, 0, true⟩⟩,
          [(1, composeTag 1 1), (2, composeTag 1 2)]) :=
  ⟨rfl, rfl, rfl⟩

end HeapAgent
