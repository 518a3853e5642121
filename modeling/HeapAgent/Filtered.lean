import HeapAgent.Buffers
import HeapAgent.Coverage
import HeapAgent.Invariant

/-! What `nativeWalkHeapFiltered` reports when every runtime call but the
growths of the tag array succeeds. Each resolved class's turn advances the
epoch and tags the instances it finds untagged; it never clears. An instance
that an earlier call left tagged is skipped by `heap_tagging_cb` and so never
reported, and an instance of a class listed twice is reported at its first turn
only. A refused growth leaves the turn with the tags stored before it, and the
walk reports the instances carrying those. -/

namespace HeapAgent

/-- The classes the listed names resolve to, in order. -/
def resolved (jvm : Jvm) (names : List (Option String)) : List Nat := names.filterMap (·.bind jvm.findClass)

/-- No object carries a tag from an epoch after the current one. -/
def NoFutureTags (w : World) : Prop := ∀ o ∈ w.heap, o.tag ≠ 0 → tagEpoch o.tag ≤ w.epoch

section Spec

variable (jvm : Jvm)

theorem collectTurn_stored (grows : Nat → Bool) {w : World} {element : Option String} {cls m : Nat}
    (resolves : element.bind jvm.findClass = some cls) (behind : NoFutureTags w) (fits : w.epoch + 1 < 2 ^ 32)
    (few : w.heap.length < 2 ^ 32) (granted : ∀ i < m, capacityAfter i ≤ i → grows i = true)
    (stops : m = (w.heap.filter (fresh (some cls))).length ∨
      m < (w.heap.filter (fresh (some cls))).length ∧ capacityAfter m ≤ m ∧ grows m = false) :
    (collectTurn jvm { ClassAnswers.succeeding with grows } w element).1.heap =
        tagFrom (some cls) (w.epoch + 1) 1 w.heap ∧
      (collectTurn jvm { ClassAnswers.succeeding with grows } w element).1.epoch = w.epoch + 1 ∧
      ((collectTurn jvm { ClassAnswers.succeeding with grows } w element).2.map Obj.ref).Perm
        (((w.heap.filter (fresh (some cls))).take m).map Obj.ref) := by
  have small : (w.heap.filter (fresh (some cls))).length < 2 ^ 32 := lt_of_le_of_lt (List.length_filter_le _ _) few
  have within : m < 2 ^ 32 := by rcases stops with same | ⟨less, -⟩ <;> omega
  have col := World.tagPass_stops w.advanceEpoch.resetCounter (some cls) grows granted (by simpa using stops)
  simp only [World.resetCounter_counter, World.resetCounter_epoch, World.advanceEpoch_epoch, World.resetCounter_heap,
    World.advanceEpoch_heap] at col
  have heap : (w.advanceEpoch.resetCounter.tagPass (some cls) grows).1.heap =
      tagFrom (some cls) (w.epoch + 1) 1 w.heap := by
    simp [World.tagPass_eq]
  have stale : ∀ o ∈ w.heap, fresh (some cls) o = false →
      o.tag ∉ (List.range' 1 m).map (composeTag (w.epoch + 1)) := by
    intro o member _ issued
    obtain ⟨k, -, same⟩ := List.mem_map.mp issued
    by_cases zero : o.tag = 0
    · exact range_tags_nonzero _ within (zero ▸ issued)
    · have := behind o member zero
      rw [← same, tagEpoch_composeTag, Nat.mod_eq_of_lt fits] at this
      omega
  have stored := tagFrom_filter_stored (some cls) (w.epoch + 1) m 1 w.heap (by omega) stale
  simp only [collectTurn, ClassAnswers.succeeding_chars, ClassAnswers.succeeding_tagging,
    ClassAnswers.succeeding_lookup, ↓reduceIte, resolves, heap, col, World.tagPass_epoch, World.resetCounter_epoch,
    World.advanceEpoch_epoch, TagCollector.reached_count, TagCollector.reached_tags, List.length_map,
    List.length_range', true_and]
  by_cases none : m = 0
  · subst none
    simp
  · rw [if_pos ⟨Nat.pos_of_ne_zero none, range_tags_nonzero _ within⟩]
    have reported := (jvm.reports (tagFrom (some cls) (w.epoch + 1) 1 w.heap)
      ((List.range' 1 m).map (composeTag (w.epoch + 1)))).map Obj.ref
    rwa [stored, List.map_take, retag_refs, ← List.map_take] at reported

end Spec

/-- On 129 untagged instances of `X`, with every runtime call succeeding but the
`realloc` that grows the tag array from 128 to 256 slots, the 129th `tag_add`
fails and each of the three tagging calls returns the 128 instances tagged
before it: `nativeSnapshotBytes` a snapshot of 128 entries, `nativeWalkHeap` and
`nativeWalkHeapFiltered` arrays of 128 objects. When the first growth is the one
refused, `nativeSnapshotBytes` returns the zero-object snapshot. -/
theorem refused_tag_growth_partial_results :
    ((nativeSnapshotBytes sampleJvm { SnapshotAnswers.succeeding with grows := fun _ => false } (some "X")).run
        (.start (World.init ((List.range 129).map fun i => ⟨i + 1, 1, 0⟩)))).1 = some [0, 0, 0, 0] ∧
      (∃ entries, ((nativeSnapshotBytes sampleJvm { SnapshotAnswers.succeeding with grows := fun n => n != 128 }
          (some "X")).run (.start (World.init ((List.range 129).map fun i => ⟨i + 1, 1, 0⟩)))).1.bind decodeSnapshot =
          some entries ∧ entries.length = 128) ∧
      (∃ objs, ((nativeWalkHeap sampleJvm { WalkAnswers.succeeding with grows := fun n => n != 128 }).run
          (.start (World.init ((List.range 129).map fun i => ⟨i + 1, 1, 0⟩)))).1 = some objs ∧ objs.length = 128) ∧
      ∃ objs, ((nativeWalkHeapFiltered sampleJvm
          ⟨fun _ => { ClassAnswers.succeeding with grows := fun n => n != 128 }, true⟩ (some [some "X"])).run
          (.start (World.init ((List.range 129).map fun i => ⟨i + 1, 1, 0⟩)))).1 = some objs ∧ objs.length = 128 := by
  have instances : ∀ o ∈ (List.range 129).map fun i => (⟨i + 1, 1, 0⟩ : Obj), o.cls = 1 ∧ o.tag = 0 :=
      fun o member => by
    obtain ⟨i, -, rfl⟩ := List.mem_map.mp member
    exact ⟨rfl, rfl⟩
  have length : ((List.range 129).map fun i => (⟨i + 1, 1, 0⟩ : Obj)).length = 129 := by simp
  generalize (List.range 129).map (fun i => (⟨i + 1, 1, 0⟩ : Obj)) = heap at instances length ⊢
  have admitted : heap.filter (admits (some 1)) = heap :=
    List.filter_eq_self.mpr fun o member => by simp [admits, (instances o member).1]
  have untagged : heap.filter (fresh (some 1)) = heap :=
    List.filter_eq_self.mpr fun o member => by simp [fresh, admits, instances o member]
  have granted : ∀ i < 128, capacityAfter i ≤ i → (i != 128) = true :=
    fun i lt _ => by simpa using Nat.ne_of_lt lt
  have stops : 128 < 129 ∧ capacityAfter 128 ≤ 128 ∧ (128 != 128) = false :=
    ⟨by decide, (capacityAfter_pow 0).le, rfl⟩
  have resolves : sampleJvm.findClass "X" = some 1 := by decide
  refine ⟨(failed_pass_reported_as_empty sampleJvm _ "X" resolves (by decide) true true (fun _ => false)
    (.inr (.inl rfl))).1, ?_, ?_, ?_⟩
  · obtain ⟨refs, -, -, entries, decoded, perm⟩ := snapshot_reports_stored sampleJvm (World.init heap) "X"
      (fun n => n != 128) (m := 128) resolves (by decide) (by simp only [World.init, admitted, length]; decide)
      (by simp only [World.init, admitted, length]; decide) granted
      (by simp only [World.init, admitted, length]; exact .inr stops)
    refine ⟨entries, decoded, ?_⟩
    have counted := congrArg List.length refs
    rw [List.length_map, List.length_map] at counted
    rw [perm.length_eq, List.length_map, List.length_take, counted]
    simp only [World.init, admitted, length]
    rfl
  · obtain ⟨refs, -, -, none, objs⟩ := walkHeap_reports_stored sampleJvm (World.init heap) (fun n => n != 128)
      (m := 128) (by simp only [World.init, length]; decide) (by decide) granted
      (by simp only [World.init, length]; exact .inr stops)
    obtain ⟨found, result⟩ := Option.ne_none_iff_exists'.mp (mt none.mp (by decide))
    have counted := congrArg List.length refs
    rw [List.length_map, List.length_map] at counted
    rw [result]
    refine ⟨found, rfl, ?_⟩
    rw [(objs found result).length_eq, List.length_take, counted]
    simp only [World.init, length]
    rfl
  · obtain ⟨-, -, found⟩ := collectTurn_stored sampleJvm (fun n => n != 128) (w := World.init heap)
      (m := 128) (show (some "X").bind sampleJvm.findClass = some 1 from resolves)
      (fun o member tagged => absurd (instances o member).2 tagged) (by simp [World.init])
      (by simp only [World.init, length]; decide) granted
      (by simp only [World.init, untagged, length]; exact .inr stops)
    have counted := found.length_eq
    rw [List.length_map, List.length_map, List.length_take,
      show ((World.init heap).heap.filter (fresh (some 1))).length = 129 by simp only [World.init, untagged, length]]
      at counted
    have single : (collectAll sampleJvm ⟨fun _ => { ClassAnswers.succeeding with grows := fun n => n != 128 }, true⟩
        0 (Native.start (World.init heap)).world [some "X"]).2.flatten =
        (collectTurn sampleJvm { ClassAnswers.succeeding with grows := fun n => n != 128 } (World.init heap)
          (some "X")).2 :=
      List.append_nil _
    rw [(nativeWalkHeapFiltered_collects sampleJvm _ (fun _ => rfl) rfl [some "X"] _ (by decide)).1, single,
      if_neg fun empty => by rw [empty] at counted; contradiction]
    exact ⟨_, rfl, counted⟩

end HeapAgent
