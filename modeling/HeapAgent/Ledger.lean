import HeapAgent.Jni
import Mathlib.Data.List.Nodup

/-! The JNI ledger as a resource discipline. A call must give back the native
handles it takes (memory blocks, JVMTI arrays, UTF characters, the strings of
`GetErrorName`) and must never release a handle it does not hold; local and
object references are freed by the JVM when the call returns. `Frame j j'
released kept` says what an action did to the ledger: which held handles it
released, and which fresh native handles it still holds besides the error names
`check_print` took, which stay held. Frames compose along a program, so each
function of the agent gets one frame lemma and its callers cite it. -/

namespace HeapAgent

/-- The handles a call must give back itself. -/
def Kind.native : Kind → Bool
  | .buffer | .jvmtiBuffer | .utfChars | .errorName => true
  | .objectRef | .localRef => false

/-- The JVMTI arrays of a lookup, in the order the agent deallocates them. -/
def Lookup.arrays (lookup : Lookup) : List Handle := lookup.objects.toList ++ lookup.tagsOut.toList

/-- The local references of a lookup. -/
def Lookup.refs (lookup : Lookup) : List Handle := lookup.found.map Prod.fst

namespace Jni

/-- The ledger's well-formedness: every held handle was handed out before
`fresh`, none is held twice, and every error name `GetErrorName` handed over is
still held. -/
structure Sound (j : Jni) : Prop where
  below : ∀ h ∈ j.held, h.id < j.fresh
  nodup : j.held.Nodup
  named : ∀ h ∈ j.names, h ∈ j.held

/-- The ledger `j` became `j'`. The held handles `released` picks are gone and
the other held handles are still held, no stray release happened, and every
handle held now that was not held before is fresh; the fresh native ones other
than error names are among those `kept` picks, all of which are fresh, held and
not error names. Error names are only added, and fresh ones. -/
structure Frame (j j' : Jni) (released kept : Handle → Prop) : Prop where
  sound : j'.Sound
  strays : j'.strays = j.strays
  fresh : j.fresh ≤ j'.fresh
  keeps : ∀ h ∈ j.held, ¬released h → h ∈ j'.held
  drops : ∀ h ∈ j.held, released h → h ∉ j'.held
  grows : ∀ h ∈ j'.held, h ∉ j.held → j.fresh ≤ h.id ∧ (h.kind.native → h ∉ j'.names → kept h)
  kept : ∀ h, kept h → j.fresh ≤ h.id ∧ h ∈ j'.held ∧ h ∉ j'.names
  older : ∀ h ∈ j.names, h ∈ j'.names
  newer : ∀ h ∈ j'.names, h ∉ j.names → j.fresh ≤ h.id ∧ h ∉ j.held

theorem Sound.not_mem {j : Jni} (sound : j.Sound) {h : Handle} (late : j.fresh ≤ h.id) : h ∉ j.held :=
  fun held => absurd (sound.below h held) (Nat.not_lt.mpr late)

namespace Frame

variable {j j' j₁ j₂ : Jni} {r₁ r₂ k₁ k₂ : Handle → Prop}

/-- An action that leaves the held handles, the strays, `fresh` and the error
names alone. -/
theorem of_eq (sound : j.Sound) (held : j'.held = j.held) (strays : j'.strays = j.strays) (fresh : j'.fresh = j.fresh)
    (names : j'.names = j.names) : Frame j j' (fun _ => False) (fun _ => False) where
  sound := ⟨by rw [held, fresh]; exact sound.below, by rw [held]; exact sound.nodup,
    by rw [held, names]; exact sound.named⟩
  strays := strays
  fresh := fresh.ge
  keeps h member _ := held ▸ member
  drops _ _ no := no.elim
  grows h member absent := absurd (held ▸ member) absent
  kept _ no := no.elim
  older h member := names ▸ member
  newer h member absent := absurd (names ▸ member) absent

theorem refl (sound : j.Sound) : Frame j j (fun _ => False) (fun _ => False) := of_eq sound rfl rfl rfl rfl

/-- Two actions in sequence: the first one's kept handles stay kept unless the
second releases them. -/
theorem trans (sound : j.Sound) (first : Frame j j₁ r₁ k₁) (second : Frame j₁ j₂ r₂ k₂) :
    Frame j j₂ (fun h => r₁ h ∨ r₂ h) (fun h => (k₁ h ∧ ¬r₂ h) ∨ k₂ h) where
  sound := second.sound
  strays := second.strays.trans first.strays
  fresh := first.fresh.trans second.fresh
  keeps h member free := second.keeps h (first.keeps h member fun r => free (.inl r)) fun r => free (.inr r)
  drops h member released later := by
    by_cases early : r₁ h
    · have young := (second.grows h later (first.drops h member early)).1
      exact absurd (sound.below h member) (Nat.not_lt.mpr (first.fresh.trans young))
    · exact second.drops h (first.keeps h member early) (released.resolve_left early) later
  grows h later absent := by
    by_cases middle : h ∈ j₁.held
    · obtain ⟨young, native⟩ := first.grows h middle absent
      exact ⟨young, fun n unnamed => .inl ⟨native n fun named => unnamed (second.older h named),
        fun released => second.drops h middle released later⟩⟩
    · obtain ⟨young, native⟩ := second.grows h later middle
      exact ⟨first.fresh.trans young, fun n unnamed => .inr (native n unnamed)⟩
  kept h
    | .inl ⟨kept, free⟩ =>
      have ⟨young, held, unnamed⟩ := first.kept h kept
      ⟨young, second.keeps h held free, fun named => (second.newer h named unnamed).2 held⟩
    | .inr kept => have ⟨young, held, unnamed⟩ := second.kept h kept; ⟨first.fresh.trans young, held, unnamed⟩
  older h member := second.older h (first.older h member)
  newer h member absent := by
    by_cases middle : h ∈ j₁.names
    · exact first.newer h middle absent
    · have young := first.fresh.trans (second.newer h member middle).1
      exact ⟨young, sound.not_mem young⟩

theorem congr {r r' k k' : Handle → Prop} (frame : Frame j j' r k) (same : ∀ h ∈ j.held, r h ↔ r' h)
    (kept : ∀ h, k h ↔ k' h) : Frame j j' r' k' where
  sound := frame.sound
  strays := frame.strays
  fresh := frame.fresh
  keeps h member free := frame.keeps h member fun r => free ((same h member).mp r)
  drops h member released := frame.drops h member ((same h member).mpr released)
  grows h later absent := (frame.grows h later absent).imp_right fun native n unnamed => (kept h).mp (native n unnamed)
  kept h k := frame.kept h ((kept h).mpr k)
  older := frame.older
  newer := frame.newer

end Frame

/-- The handles `hs` are held, none twice and none an error name: what a
function has to give back. -/
structure Owns (j : Jni) (hs : List Handle) : Prop where
  held : ∀ h ∈ hs, h ∈ j.held
  nodup : hs.Nodup
  unnamed : ∀ h ∈ hs, h ∉ j.names

namespace Owns

variable {j j' : Jni} {hs hs' : List Handle} {r k : Handle → Prop}

theorem nil (j : Jni) : Owns j [] :=
  ⟨fun _ no => absurd no (List.not_mem_nil _), List.nodup_nil, fun _ no => absurd no (List.not_mem_nil _)⟩

theorem left (owns : Owns j (hs ++ hs')) : Owns j hs :=
  ⟨fun h member => owns.held h (List.mem_append_left _ member), owns.nodup.sublist (List.sublist_append_left _ _),
    fun h member => owns.unnamed h (List.mem_append_left _ member)⟩

theorem right (owns : Owns j (hs ++ hs')) : Owns j hs' :=
  ⟨fun h member => owns.held h (List.mem_append_right _ member), owns.nodup.sublist (List.sublist_append_right _ _),
    fun h member => owns.unnamed h (List.mem_append_right _ member)⟩

theorem tail {h : Handle} (owns : Owns j (h :: hs)) : Owns j hs :=
  ⟨fun x member => owns.held x (.tail _ member), (List.nodup_cons.mp owns.nodup).2,
    fun x member => owns.unnamed x (.tail _ member)⟩

theorem not_kept (sound : j.Sound) (owns : Owns j hs) (frame : Frame j j' r k) {h : Handle} (kept : k h) :
    h ∉ hs :=
  fun member => sound.not_mem (frame.kept h kept).1 (owns.held h member)

theorem perm (owns : Owns j hs) (perm : hs.Perm hs') : Owns j hs' :=
  ⟨fun h member => owns.held h (perm.mem_iff.mpr member), perm.nodup_iff.mp owns.nodup,
    fun h member => owns.unnamed h (perm.mem_iff.mpr member)⟩

theorem acquire (owns : Owns j hs) (sound : j.Sound) (kind : Kind) :
    Owns ((Jni.acquire kind).run j).2 (⟨j.fresh, kind⟩ :: hs) where
  held h member := by
    rw [acquire_run, List.mem_cons] at *
    exact member.imp_right (owns.held h)
  nodup := List.nodup_cons.mpr ⟨fun old => sound.not_mem le_rfl (owns.held _ old), owns.nodup⟩
  unnamed h member := by
    rw [acquire_run]
    rcases List.mem_cons.mp member with rfl | old
    · exact fun named => sound.not_mem le_rfl (sound.named _ named)
    · exact owns.unnamed h old

theorem sub (owns : Owns j hs) (fewer : ∀ h, hs'.count h ≤ hs.count h) : Owns j hs' := by
  obtain ⟨l, perm, sub⟩ := List.subperm_ext_iff.mpr fun h _ => fewer h
  exact ⟨fun h member => owns.held h (sub.subset (perm.symm.subset member)), perm.nodup_iff.mp (owns.nodup.sublist sub),
    fun h member => owns.unnamed h (sub.subset (perm.symm.subset member))⟩

theorem frame (owns : Owns j hs) (frame : Frame j j' r k) (free : ∀ h ∈ hs, ¬r h) : Owns j' hs :=
  ⟨fun h member => frame.keeps h (owns.held h member) (free h member), owns.nodup,
    fun h member named => (frame.newer h named (owns.unnamed h member)).2 (owns.held h member)⟩

theorem release_head {h : Handle} (owns : Owns j (h :: hs)) (frame : Frame j j' (· = h) k) : Owns j' hs :=
  owns.tail.frame frame fun _ member same => (List.nodup_cons.mp owns.nodup).1 (same ▸ member)

theorem drop (owns : Owns j (hs ++ hs')) (frame : Frame j j' (· ∈ hs) k) : Owns j' hs' :=
  owns.right.frame frame fun _ member gone => List.disjoint_of_nodup_append owns.nodup gone member

/-- What a frame keeps joins what stays owned: kept handles are fresh, so none
is owned already. -/
theorem keep (sound : j.Sound) (owns : Owns j hs) (frame : Frame j j' r k) (free : ∀ h ∈ hs, ¬r h)
    {new : List Handle} (kept : ∀ h ∈ new, k h) (distinct : new.Nodup) : Owns j' (new ++ hs) where
  held h member := (List.mem_append.mp member).elim (fun young => (frame.kept h (kept h young)).2.1)
    fun old => (owns.frame frame free).held h old
  nodup := distinct.append owns.nodup fun h young old =>
    sound.not_mem (frame.kept h (kept h young)).1 (owns.held h old)
  unnamed h member := (List.mem_append.mp member).elim (fun young => (frame.kept h (kept h young)).2.2)
    fun old => (owns.frame frame free).unnamed h old

end Owns

/-- An action that takes the fresh handles `new` and gives nothing back; `kept`
picks the native ones. -/
theorem Frame.of_prepend {j j' : Jni} (sound : j.Sound) (new : List Handle) {kept : Handle → Prop}
    (young : ∀ h ∈ new, j.fresh ≤ h.id ∧ h.id < j'.fresh) (distinct : new.Nodup) (shape : j'.held = new ++ j.held)
    (strays : j'.strays = j.strays) (later : j.fresh ≤ j'.fresh) (names : j'.names = j.names)
    (picks : ∀ h, h ∈ new ∧ h.kind.native ↔ kept h) :
    Frame j j' (fun _ => False) kept where
  sound := by
    refine ⟨fun h member => ?_, ?_, fun h named => ?_⟩
    · rw [shape, List.mem_append] at member
      rcases member with fresh | old
      · exact (young h fresh).2
      · exact Nat.lt_of_lt_of_le (sound.below h old) later
    · rw [shape]
      exact distinct.append sound.nodup fun a fresh old => sound.not_mem (young a fresh).1 old
    · rw [names] at named
      rw [shape]
      exact List.mem_append_right _ (sound.named h named)
  strays := strays
  fresh := later
  keeps h member _ := by rw [shape]; exact List.mem_append_right _ member
  drops _ _ no := no.elim
  grows h later absent := by
    rw [shape, List.mem_append] at later
    rcases later with fresh | old
    · exact ⟨(young h fresh).1, fun native _ => (picks h).mp ⟨fresh, native⟩⟩
    · exact absurd old absent
  kept h k := by
    have fresh := ((picks h).mpr k).1
    refine ⟨(young h fresh).1, by rw [shape]; exact List.mem_append_left _ fresh, fun named => ?_⟩
    rw [names] at named
    exact sound.not_mem (young h fresh).1 (sound.named h named)
  older h member := names ▸ member
  newer h member absent := absurd (names ▸ member) absent

theorem acquire_frame {j : Jni} (sound : j.Sound) (kind : Kind) :
    Frame j ((acquire kind).run j).2 (fun _ => False) (fun h => h = ⟨j.fresh, kind⟩ ∧ kind.native) :=
  .of_prepend sound [⟨j.fresh, kind⟩] (by simp) (List.nodup_singleton _) rfl rfl (Nat.le_succ _) rfl
    fun h => by simp only [List.mem_singleton]; constructor <;> rintro ⟨rfl, native⟩ <;> exact ⟨rfl, native⟩

theorem release_frame {j : Jni} (sound : j.Sound) {h : Handle} (held : h ∈ j.held) (unnamed : h ∉ j.names) :
    Frame j ((release h).run j).2 (· = h) (fun _ => False) where
  sound := by
    simp only [release_run, held, if_true]
    refine ⟨fun x member => sound.below x (List.mem_of_mem_erase member), sound.nodup.erase h, fun x named => ?_⟩
    exact (sound.nodup.mem_erase_iff).mpr ⟨fun same => unnamed (same ▸ named), sound.named x named⟩
  strays := by simp [held]
  fresh := by simp [held]
  keeps x member other := by simpa [held, sound.nodup.mem_erase_iff, member] using other
  drops x _ same := by simp [held, sound.nodup.mem_erase_iff, same]
  grows x later absent := by
    simp only [release_run, held, if_true] at later
    exact absurd (List.mem_of_mem_erase later) absent
  kept _ no := no.elim
  older x member := by simpa [held] using member
  newer x member absent := by simp only [release_run, held, if_true] at member; exact absurd member absent

/-- A ledger that gave back the held handle `r` and holds the fresh handles
`new` besides, of which `kept` picks the native ones. -/
theorem Frame.of_erase {j j' : Jni} (sound : j.Sound) {r : Handle} (held : r ∈ j.held) (unnamed : r ∉ j.names)
    (new : List Handle) {kept : Handle → Prop} (young : ∀ h ∈ new, j.fresh ≤ h.id ∧ h.id < j'.fresh)
    (distinct : new.Nodup) (shape : j'.held = new ++ j.held.erase r) (strays : j'.strays = j.strays)
    (later : j.fresh ≤ j'.fresh) (names : j'.names = j.names)
    (picks : ∀ h, h ∈ new ∧ h.kind.native ↔ kept h) : Frame j j' (· = r) kept := by
  have first := release_frame sound held unnamed
  have erased : ((release r).run j).2 = { j with held := j.held.erase r } := by simp [held]
  rw [erased] at first
  have second : Frame { j with held := j.held.erase r } j' (fun _ => False) kept :=
    .of_prepend first.sound new young distinct shape strays later names picks
  exact (first.trans sound second).congr (by simp) (by simp)

/-- Releasing owned handles in turn. -/
theorem forM_release_frame {j : Jni} (sound : j.Sound) {hs : List Handle} (owns : Owns j hs) :
    Frame j ((hs.forM release).run j).2 (· ∈ hs) (fun _ => False) := by
  induction hs generalizing j with
  | nil => exact (Frame.refl sound).congr (by simp) (by simp)
  | cons h rest ih =>
    have first := release_frame sound (owns.held h (.head _)) (owns.unnamed h (.head _))
    have second := ih first.sound (owns.release_head first)
    simp only [List.forM_cons', StateT.run_bind, Id.bind_eq]
    exact (first.trans sound second).congr (by simp) (by simp)

theorem Frame.nil {j j' : Jni} {r : Handle → Prop} (frame : Frame j j' r (fun _ => False)) :
    Frame j j' r (· ∈ ([] : List Handle)) :=
  frame.congr (fun _ _ => Iff.rfl) (by simp)

theorem Frame.seq {j j₁ j₂ : Jni} (sound : j.Sound) {r : Handle → Prop} {first second : List Handle}
    (before : Frame j j₁ r (· ∈ first)) (after : Frame j₁ j₂ (fun _ => False) (· ∈ second)) :
    Frame j j₂ r (· ∈ second ++ first) :=
  (before.trans sound after).congr (by simp) (by simp [or_comm])

/-- The second action gives back everything the first kept. -/
theorem Frame.settle {j j₁ j₂ : Jni} (sound : j.Sound) {r r' : Handle → Prop} {extra : List Handle}
    (first : Frame j j₁ r (· ∈ extra)) (second : Frame j₁ j₂ (fun h => h ∈ extra ∨ r' h) (fun _ => False)) :
    Frame j j₂ (fun h => r h ∨ r' h) (fun _ => False) :=
  (first.trans sound second).congr
    (fun h held => by
      have new : h ∉ extra := fun kept => sound.not_mem (first.kept h kept).1 held
      simp [new])
    (by simp only [or_false, iff_false, not_and, not_or]; exact fun h kept gone => absurd kept gone)

/-- An exit that gives back what was kept since `j`, `extra`, and the owned
handles `base`. -/
theorem Frame.close {j j₁ : Jni} (sound : j.Sound) {r : Handle → Prop} {extra base : List Handle}
    (middle : Frame j j₁ r (· ∈ extra)) (owns : Owns j₁ (extra ++ base)) :
    Frame j (((extra ++ base).forM release).run j₁).2 (fun h => r h ∨ h ∈ base) (fun _ => False) :=
  middle.settle sound ((forM_release_frame middle.sound owns).congr (by simp) fun _ => Iff.rfl)

theorem Frame.release_kept {j j₁ : Jni} (sound : j.Sound) {r : Handle → Prop} {extra : List Handle}
    (middle : Frame j j₁ r (· ∈ extra)) (owns : Owns j₁ extra) :
    Frame j ((extra.forM release).run j₁).2 r (fun _ => False) := by
  have gone : Frame j₁ _ (fun h => h ∈ extra ∨ False) (fun _ => False) :=
    (forM_release_frame middle.sound owns).congr (by simp) fun _ => Iff.rfl
  exact (middle.settle sound gone).congr (by simp) fun _ => Iff.rfl

theorem Frame.release_owned {j j₁ : Jni} (sound : j.Sound) {base : List Handle}
    (middle : Frame j j₁ (fun _ => False) (fun _ => False)) (owns : Owns j₁ base) :
    Frame j ((base.forM release).run j₁).2 (· ∈ base) (fun _ => False) :=
  (middle.trans sound (forM_release_frame middle.sound owns)).congr (by simp) (by simp)

theorem Frame.release_fresh {j j₁ : Jni} (sound : j.Sound) {r k : Handle → Prop} (first : Frame j j₁ r k)
    {h : Handle} (young : j.fresh ≤ h.id) (held : h ∈ j₁.held) (unnamed : h ∉ j₁.names) :
    Frame j ((release h).run j₁).2 r (fun x => k x ∧ x ≠ h) :=
  (first.trans sound (release_frame first.sound held unnamed)).congr
    (fun x old => or_iff_left fun same => sound.not_mem young (same ▸ old)) (by simp)

theorem free_eq (block : Option Handle) : free block = block.toList.forM release := by
  cases block <;> rfl

theorem deallocate_eq (block : Option Handle) : deallocate block = block.toList.forM release := free_eq block

theorem deleteLocalRef_eq (ref : Handle) : deleteLocalRef ref = [ref].forM release := by
  simp [deleteLocalRef]

theorem forM_release_seq {α : Type} (first second : List Handle) (next : StateM Jni α) :
    (do first.forM release; second.forM release; next) = (do (first ++ second).forM release; next) := by
  rw [List.forM_append, bind_assoc]

theorem mem_numberRefs {fresh : Nat} {objs : List Obj} {x : Handle × Obj} (member : x ∈ numberRefs fresh objs) :
    fresh ≤ x.1.id ∧ x.1.id < fresh + objs.length ∧ x.1.kind = .objectRef := by
  simp only [numberRefs, List.mem_map] at member
  obtain ⟨⟨i, o⟩, enum, rfl⟩ := member
  have := List.fst_lt_of_mem_enum enum
  exact ⟨Nat.le_add_right _ _, by simp at this ⊢; omega, rfl⟩

theorem numberRefs_nodup (fresh : Nat) (objs : List Obj) : ((numberRefs fresh objs).map Prod.fst).Nodup := by
  have ids : ((numberRefs fresh objs).map Prod.fst).map Handle.id = List.range' fresh objs.length :=
    calc ((numberRefs fresh objs).map Prod.fst).map Handle.id = (objs.enum.map Prod.fst).map (fresh + ·) := by
          simp only [numberRefs, List.map_map, Function.comp_def]
      _ = List.range' fresh objs.length := by rw [List.enum_map_fst, List.range'_eq_map_range]
  exact List.Nodup.of_map Handle.id (ids ▸ List.nodup_range' _ _)

theorem handOver_found_eq (found : List Obj) (withTags : Bool) (j : Jni) :
    ((handOver found withTags).run j).1.found = numberRefs j.fresh found := by
  unfold handOver
  split
  · rfl
  · cases withTags <;> rfl

theorem handOver_tagsOut (found : List Obj) (j : Jni) : ((handOver found false).run j).1.tagsOut = none := by
  unfold handOver
  split <;> rfl

theorem getObjectsWithTags_run (jvm : Jvm) (heap : List Obj) (ok : Bool) (tags : List Nat) (withTags : Bool) (j : Jni) :
    (getObjectsWithTags jvm heap ok tags withTags).run j =
      if ok ∧ 0 ∉ tags then
        (some ((handOver (jvm.objectsWithTags heap tags) withTags).run j).1,
          ((handOver (jvm.objectsWithTags heap tags) withTags).run j).2)
      else (none, j) := by
  unfold getObjectsWithTags
  split <;> rfl

theorem getObjectsWithTags_fresh (jvm : Jvm) (heap : List Obj) (ok : Bool) (tags : List Nat) (withTags : Bool)
    (j : Jni) : ∀ h ∈ (((getObjectsWithTags jvm heap ok tags withTags).run j).1.getD .none).refs, j.fresh ≤ h.id := by
  rw [getObjectsWithTags_run]
  split
  · simp only [Option.getD_some, Lookup.refs, handOver_found_eq, List.mem_map]
    rintro h ⟨x, member, rfl⟩
    exact (mem_numberRefs member).1
  · simp [Lookup.none, Lookup.refs]

section Calls

variable {j : Jni} (sound : j.Sound)
include sound

theorem localRef_frame : Frame j ((acquire .localRef).run j).2 (fun _ => False) (fun _ => False) :=
  (acquire_frame sound .localRef).congr (fun _ _ => Iff.rfl) (by simp [Kind.native])

theorem raise_frame : Frame j (raise.run j).2 (fun _ => False) (fun _ => False) := .of_eq sound rfl rfl rfl rfl

/-- `check_print` takes the error's name and never gives it back. -/
theorem checkPrint_frame : Frame j (checkPrint.run j).2 (fun _ => False) (fun _ => False) where
  sound := by
    simp only [checkPrint_run]
    refine ⟨fun h member => ?_, List.nodup_cons.mpr ⟨sound.not_mem le_rfl, sound.nodup⟩, fun h named => ?_⟩
    · rcases List.mem_cons.mp member with rfl | old
      · exact Nat.lt_succ_self _
      · exact Nat.lt_succ_of_lt (sound.below h old)
    · rcases List.mem_cons.mp named with rfl | old
      · exact .head _
      · exact .tail _ (sound.named h old)
  strays := rfl
  fresh := Nat.le_succ _
  keeps h member _ := .tail _ member
  drops _ _ no := no.elim
  grows h later absent := by
    rcases List.mem_cons.mp later with rfl | old
    · exact ⟨le_rfl, fun _ unnamed => absurd (.head _) unnamed⟩
    · exact absurd old absent
  kept _ no := no.elim
  older h member := .tail _ member
  newer h member absent := by
    rcases List.mem_cons.mp member with rfl | old
    · exact ⟨le_rfl, sound.not_mem le_rfl⟩
    · exact absurd old absent

theorem findClass_frame (jvm : Jvm) (name : String) :
    Frame j ((findClass jvm name).run j).2 (fun _ => False) (fun _ => False) := by
  unfold findClass
  split
  · exact localRef_frame sound
  · exact raise_frame sound

theorem findClass_owns (jvm : Jvm) (name : String) {hs : List Handle} (owns : Owns j hs) {ref : Handle} {cls : Nat}
    {j' : Jni} (found : (findClass jvm name).run j = (some (ref, cls), j')) :
    ref = ⟨j.fresh, .localRef⟩ ∧ Owns j' (ref :: hs) := by
  unfold findClass at found
  split at found
  · simp only [StateT.run_bind, acquire_run, Id.bind_eq, StateT.run_pure, Id.pure_eq, Prod.mk.injEq,
      Option.some.injEq] at found
    obtain ⟨⟨rfl, -⟩, rfl⟩ := found
    exact ⟨rfl, owns.acquire sound .localRef⟩
  · exact absurd (congrArg Prod.fst found) nofun

theorem newLocalRef_frame (ok : Bool) : Frame j ((newLocalRef ok).run j).2 (fun _ => False) (fun _ => False) := by
  cases ok
  · exact raise_frame sound
  · exact localRef_frame sound

theorem getMethodID_frame (ok : Bool) : Frame j ((getMethodID ok).run j).2 (fun _ => False) (fun _ => False) := by
  cases ok
  · exact raise_frame sound
  · exact .refl sound

theorem malloc_frame (ok : Bool) :
    Frame j ((malloc ok).run j).2 (fun _ => False) (· ∈ ((malloc ok).run j).1.toList) := by
  cases ok
  · exact (Frame.refl sound).congr (fun _ _ => Iff.rfl) (by simp [malloc])
  · exact (acquire_frame sound .buffer).congr (fun _ _ => Iff.rfl) (by simp [malloc, Kind.native, eq_comm])

theorem getStringUTFChars_frame (ok : Bool) :
    Frame j ((getStringUTFChars ok).run j).2 (fun _ => False) (· ∈ ((getStringUTFChars ok).run j).1.toList) := by
  cases ok
  · exact (raise_frame sound).congr (fun _ _ => Iff.rfl) (by simp [getStringUTFChars])
  · exact (acquire_frame sound .utfChars).congr (fun _ _ => Iff.rfl)
      (by simp [getStringUTFChars, Kind.native, eq_comm])

theorem acquireRefs_frame (objs : List Obj) :
    Frame j ((acquireRefs objs).run j).2 (fun _ => False) (fun _ => False) :=
  .of_prepend sound ((numberRefs j.fresh objs).reverse.map Prod.fst) (fun h member => by
      obtain ⟨x, mem, rfl⟩ := List.mem_map.mp member
      have := mem_numberRefs (List.mem_reverse.mp mem)
      simp only [acquireRefs_run]
      omega)
    (List.map_reverse Prod.fst _ ▸ List.nodup_reverse.mpr (numberRefs_nodup _ _)) rfl rfl (Nat.le_add_right _ _) rfl
    fun h => by
      simp only [iff_false, not_and, List.mem_map, List.mem_reverse]
      rintro ⟨x, mem, rfl⟩
      simp [(mem_numberRefs mem).2.2, Kind.native]

theorem acquireRefs_owns (objs : List Obj) {hs : List Handle} (owns : Owns j hs) :
    Owns ((acquireRefs objs).run j).2 ((numberRefs j.fresh objs).map Prod.fst ++ hs) where
  held h member := by
    simp only [acquireRefs_run, List.mem_append, List.map_reverse, List.mem_reverse] at member ⊢
    exact member.imp_right (owns.held h)
  nodup := (numberRefs_nodup _ _).append owns.nodup fun h ref old => by
    obtain ⟨x, mem, rfl⟩ := List.mem_map.mp ref
    exact sound.not_mem (mem_numberRefs mem).1 (owns.held _ old)
  unnamed h member named := by
    simp only [acquireRefs_run, List.mem_append] at member named
    rcases member with ref | old
    · obtain ⟨x, mem, rfl⟩ := List.mem_map.mp ref
      exact sound.not_mem (mem_numberRefs mem).1 (sound.named _ named)
    · exact owns.unnamed h old named

theorem handOver_frame (found : List Obj) (withTags : Bool) :
    Frame j ((handOver found withTags).run j).2 (fun _ => False)
      (· ∈ ((handOver found withTags).run j).1.arrays) := by
  have refs := acquireRefs_frame sound found
  unfold handOver
  simp only [StateT.run_bind, Id.bind_eq]
  split
  · exact refs.congr (fun _ _ => Iff.rfl) (by simp [Lookup.arrays])
  have objects := acquire_frame refs.sound .jvmtiBuffer
  cases withTags
  · exact (refs.trans sound objects).congr (by simp) (by simp [Lookup.arrays, Kind.native])
  · exact ((refs.trans sound objects).trans sound (acquire_frame objects.sound .jvmtiBuffer)).congr
      (by simp) (by simp [Lookup.arrays, Kind.native, or_comm])

theorem handOver_owns (found : List Obj) (withTags : Bool) {hs : List Handle} (owns : Owns j hs) :
    Owns ((handOver found withTags).run j).2
      (((handOver found withTags).run j).1.arrays ++ ((handOver found withTags).run j).1.refs ++ hs) := by
  have refs := acquireRefs_owns sound found owns
  have frame := acquireRefs_frame sound found
  unfold handOver
  simp only [StateT.run_bind, Id.bind_eq]
  split
  · simpa [Lookup.arrays, Lookup.refs] using refs
  have objects := refs.acquire frame.sound .jvmtiBuffer
  cases withTags
  · simpa [Lookup.arrays, Lookup.refs] using objects
  · have tagsOut := objects.acquire (acquire_frame frame.sound .jvmtiBuffer).sound .jvmtiBuffer
    simp only [Lookup.arrays, Lookup.refs, acquire_run, Option.toList_some, List.singleton_append, List.cons_append]
      at tagsOut ⊢
    exact tagsOut.perm (List.Perm.swap _ _ _)

/-- `GetObjectsWithTags` keeps the arrays of the lookup it returns; a refused
lookup changes nothing. -/
theorem getObjectsWithTags_frame (jvm : Jvm) (heap : List Obj) (ok : Bool) (tags : List Nat) (withTags : Bool) :
    Frame j ((getObjectsWithTags jvm heap ok tags withTags).run j).2 (fun _ => False)
      (· ∈ (((getObjectsWithTags jvm heap ok tags withTags).run j).1.getD .none).arrays) := by
  rw [getObjectsWithTags_run]
  split
  · exact handOver_frame sound _ _
  · exact (Frame.refl sound).congr (fun _ _ => Iff.rfl) (by simp [Lookup.none, Lookup.arrays])

theorem getObjectsWithTags_owns (jvm : Jvm) (heap : List Obj) (ok : Bool) (tags : List Nat) (withTags : Bool)
    {hs : List Handle} (owns : Owns j hs) :
    Owns ((getObjectsWithTags jvm heap ok tags withTags).run j).2
      ((((getObjectsWithTags jvm heap ok tags withTags).run j).1.getD .none).arrays ++
        (((getObjectsWithTags jvm heap ok tags withTags).run j).1.getD .none).refs ++ hs) := by
  rw [getObjectsWithTags_run]
  split
  · exact handOver_owns sound _ _ owns
  · simpa [Lookup.none, Lookup.arrays, Lookup.refs] using owns

end Calls

end Jni

theorem tagObjects_frame (klass : Option Nat) (grows : Nat → Bool) (ok : Bool) {s : Native} (sound : s.jni.Sound)
    {result : (TagCollector × Option Handle) × Native} (run : (tagObjects klass grows ok).run s = result) :
    Jni.Frame s.jni result.2.jni (fun _ => False) (· ∈ result.1.2.toList) := by
  subst run
  rw [tagObjects_run]
  dsimp only
  cases ok
  · exact (Jni.checkPrint_frame sound).congr (fun _ _ => Iff.rfl)
      (by simp [TagCollector.empty, TagCollector.holdsBuffer])
  simp only [Bool.not_true, Bool.false_eq_true, ↓reduceIte]
  cases (s.world.tagPass klass grows).2.1.holdsBuffer
  · exact (Jni.Frame.refl sound).congr (fun _ _ => Iff.rfl) (by simp)
  · exact (Jni.acquire_frame sound .buffer).congr (fun _ _ => Iff.rfl) (by simp [Kind.native, eq_comm])

end HeapAgent
