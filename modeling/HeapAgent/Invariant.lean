import HeapAgent.System
import HeapAgent.Pass

/-! The tagging invariant: object identities are distinct, every nonzero tag
sits below the globals (an older epoch, or this epoch below the counter), and no
two objects share a nonzero tag. The clear-then-reset of the snapshot and the
full walk, the advance-then-reset of the filtered walk, the passes after them
and the collector all keep it, on runs with no failed iteration, fewer than
`2 ^ 32 - 1` epoch advances and passes of fewer than `2 ^ 30` objects. -/

namespace HeapAgent

/-- The tagging invariant of a shared state. -/
structure Inv (w : World) : Prop where
  epoch_pos : 0 < w.epoch
  distinct : (w.heap.map Obj.ref).Nodup
  below : ∀ o ∈ w.heap, o.tag ≠ 0 →
    tagEpoch o.tag < w.epoch ∨ (tagEpoch o.tag = w.epoch ∧ tagCounter o.tag < w.counter)
  unique : ∀ o₁ ∈ w.heap, ∀ o₂ ∈ w.heap, o₁.tag = o₂.tag → o₁.tag ≠ 0 → o₁.ref = o₂.ref

/-- Every nonzero tag is from an epoch before the current one, as after a clear
or an epoch advance; the counter may then start again. -/
def AllOlder (w : World) : Prop := ∀ o ∈ w.heap, o.tag ≠ 0 → tagEpoch o.tag < w.epoch

/-- The tags a list of events wrote are all nonzero. -/
def NonzeroWrites (events : List Event) : Prop := ∀ ws, Event.pass ws ∈ events → ∀ write ∈ ws, write.2 ≠ 0

/-- What the premises of a run say about the events of one call made on `w`. -/
structure Clean (w : World) (events : List Event) : Prop where
  no_failure : Event.failed ∉ events
  epoch_fits : w.epoch + events.count .bump < 2 ^ 32
  small : ∀ ws, Event.pass ws ∈ events → ws.length < 2 ^ 30

namespace Inv

variable {w : World}

theorem init {heap : List Obj} (untagged : ∀ o ∈ heap, o.tag = 0) (distinct : (heap.map Obj.ref).Nodup) :
    Inv (World.init heap) where
  epoch_pos := Nat.one_pos
  distinct := distinct
  below o member tagged := absurd (untagged o member) tagged
  unique o₁ member _ _ _ tagged := absurd (untagged o₁ member) tagged

theorem clearTags (inv : Inv w) : Inv w.clearTags ∧ AllOlder w.clearTags := by
  have untagged := w.clearTags_untagged
  refine ⟨⟨inv.epoch_pos, ?_, ?_, ?_⟩, ?_⟩
  · rw [World.clearTags_refs]; exact inv.distinct
  · intro o member tagged; exact absurd (untagged o member) tagged
  · intro o₁ member _ _ _ tagged; exact absurd (untagged o₁ member) tagged
  · intro o member tagged; exact absurd (untagged o member) tagged

theorem advanceEpoch (inv : Inv w) : Inv w.advanceEpoch ∧ AllOlder w.advanceEpoch := by
  refine ⟨⟨by simp, inv.distinct, fun o member tagged => ?_, inv.unique⟩, fun o member tagged => ?_⟩ <;>
  · have := inv.below o member tagged
    simp only [World.advanceEpoch_epoch]
    omega

theorem resetCounter (inv : Inv w) (older : AllOlder w) : Inv w.resetCounter :=
  ⟨inv.epoch_pos, inv.distinct, fun o member tagged => .inl (older o member tagged), inv.unique⟩

/-- A tag the pass wrote is of the current epoch, at or above the counter the
pass started from. -/
private theorem written_fresh {klass : Option Nat} {grows : Nat → Bool} (fits : w.epoch < 2 ^ 32)
    (counterFits : w.counter + (w.tagPass klass grows).2.2.length ≤ 2 ^ 32)
    {write : Nat × Nat} (written : write ∈ (w.tagPass klass grows).2.2) :
    tagEpoch write.2 = w.epoch ∧ w.counter ≤ tagCounter write.2 ∧ tagCounter write.2 < (w.tagPass klass grows).1.counter := by
  obtain ⟨k, low, high, issued⟩ := w.mem_tagPass_writes klass grows written
  have counter := (w.tagPass_writes klass grows).2
  rw [issued, tagEpoch_composeTag, tagCounter_composeTag, Nat.mod_eq_of_lt fits, Nat.mod_eq_of_lt (by omega)]
  exact ⟨rfl, low, high⟩

theorem tagPass (inv : Inv w) (klass : Option Nat) (grows : Nat → Bool) (fits : w.epoch < 2 ^ 32)
    (counterFits : w.counter + (w.tagPass klass grows).2.2.length ≤ 2 ^ 32) : Inv (w.tagPass klass grows).1 := by
  have counter := (w.tagPass_writes klass grows).2
  have older : ∀ o ∈ w.heap, ∀ write ∈ (w.tagPass klass grows).2.2, o.tag = write.2 → o.tag ≠ 0 → False := by
    intro o member write written same tagged
    have ⟨epoch, low, _⟩ := written_fresh fits counterFits written
    have := inv.below o member tagged
    rw [same] at this
    omega
  refine ⟨inv.epoch_pos, ?_, fun o member tagged => ?_, fun o₁ member₁ o₂ member₂ same tagged => ?_⟩
  · rw [World.tagPass_refs]; exact inv.distinct
  · rcases w.mem_tagPass klass grows member with old | written
    · have := inv.below o old tagged
      simp only [World.tagPass_epoch]
      omega
    · have := written_fresh fits counterFits written
      exact .inr ⟨this.1, this.2.2⟩
  · rcases w.mem_tagPass klass grows member₁ with old₁ | written₁ <;>
      rcases w.mem_tagPass klass grows member₂ with old₂ | written₂
    · exact inv.unique o₁ old₁ o₂ old₂ same tagged
    · exact (older o₁ old₁ _ written₂ same tagged).elim
    · exact (older o₂ old₂ _ written₁ same.symm (same ▸ tagged)).elim
    · have nodup := w.tagPass_nodup klass grows counterFits
      have := List.inj_on_of_nodup_map nodup written₁ written₂ same
      exact (Prod.mk.inj this).1

theorem collect {w' : World} (inv : Inv w) (collects : Collects w w') : Inv w' where
  epoch_pos := collects.epoch ▸ inv.epoch_pos
  distinct := collects.distinct
  below o member tagged := by
    rcases collects.kept o member with old | untagged
    · rw [collects.epoch, collects.counter]; exact inv.below o old tagged
    · exact absurd untagged tagged
  unique o₁ member₁ o₂ member₂ same tagged := by
    rcases collects.kept o₁ member₁ with old₁ | untagged₁
    · rcases collects.kept o₂ member₂ with old₂ | untagged₂
      · exact inv.unique o₁ old₁ o₂ old₂ same tagged
      · exact absurd (same.trans untagged₂) tagged
    · exact absurd untagged₁ tagged

/-- A reset after a clear or an advance, then a pass of fewer than `2 ^ 30`
objects, keeps the invariant and writes no zero tag. -/
theorem resetPass (inv : Inv w) (older : AllOlder w) (klass : Option Nat) (grows : Nat → Bool)
    (fits : w.epoch < 2 ^ 32) (small : (w.resetCounter.tagPass klass grows).2.2.length < 2 ^ 30) :
    Inv (w.resetCounter.tagPass klass grows).1 ∧ ∀ write ∈ (w.resetCounter.tagPass klass grows).2.2, write.2 ≠ 0 :=
  ⟨(inv.resetCounter older).tagPass klass grows fits (by simp only [World.resetCounter_counter]; omega),
    w.resetCounter.tagPass_nonzero klass grows inv.epoch_pos fits⟩

/-- The clear and reset of a snapshot or a full walk, with its pass. -/
theorem clearAndTag (inv : Inv w) {clear tagging : Bool} {grows : Nat → Bool} {klass : Option (Option Nat)}
    (clean : Clean w (w.clearAndTag clear tagging grows klass).2) :
    Inv (w.clearAndTag clear tagging grows klass).1 ∧ NonzeroWrites (w.clearAndTag clear tagging grows klass).2 := by
  obtain ⟨noFailure, fits, small⟩ := clean
  cases clear
  · cases klass <;> simp [World.clearAndTag] at noFailure
  · obtain ⟨cleared, older⟩ := inv.clearTags
    cases klass with
    | none => exact ⟨cleared.resetCounter older, by simp [World.clearAndTag, NonzeroWrites]⟩
    | some klass =>
      cases tagging
      · simp [World.clearAndTag] at noFailure
      · have ⟨kept, nonzero⟩ := cleared.resetPass older klass grows (by simpa using fits)
          (small _ (by simp [World.clearAndTag]))
        exact ⟨kept, by simpa [World.clearAndTag, NonzeroWrites] using nonzero⟩

/-- One turn of the filtered walk: the advance and reset, with its pass. -/
theorem bumpAndTag (inv : Inv w) {tagging : Bool} {grows : Nat → Bool} {cls : Nat}
    (clean : Clean w (w.bumpAndTag tagging grows cls).2) :
    Inv (w.bumpAndTag tagging grows cls).1 ∧ NonzeroWrites (w.bumpAndTag tagging grows cls).2 := by
  obtain ⟨noFailure, fits, small⟩ := clean
  obtain ⟨advanced, older⟩ := inv.advanceEpoch
  cases tagging
  · simp [World.bumpAndTag] at noFailure
  · have ⟨kept, nonzero⟩ := advanced.resetPass older (some cls) grows (by simpa using fits)
      (small _ (by simp [World.bumpAndTag]))
    exact ⟨kept, by simpa [World.bumpAndTag, NonzeroWrites] using nonzero⟩

end Inv

theorem NonzeroWrites.append {a b : List Event} (first : NonzeroWrites a) (second : NonzeroWrites b) :
    NonzeroWrites (a ++ b) := by
  intro ws member
  rcases List.mem_append.mp member with inA | inB
  · exact first ws inA
  · exact second ws inB

theorem Clean.left {w : World} {a b : List Event} (clean : Clean w (a ++ b)) : Clean w a := by
  obtain ⟨noFailure, fits, small⟩ := clean
  rw [List.count_append] at fits
  exact ⟨fun member => noFailure (List.mem_append_left _ member), by omega,
    fun ws member => small ws (List.mem_append_left _ member)⟩

/-- The premises over `a ++ b` are premises over `b` from the epoch `a` leads to. -/
theorem Clean.right {w w' : World} {a b : List Event} (clean : Clean w (a ++ b))
    (epoch : w'.epoch = w.epoch + a.count .bump) : Clean w' b := by
  obtain ⟨noFailure, fits, small⟩ := clean
  rw [List.count_append] at fits
  exact ⟨fun member => noFailure (List.mem_append_right _ member), by omega,
    fun ws member => small ws (List.mem_append_right _ member)⟩

namespace Inv

variable {w : World}

theorem bumpAndTagEach (inv : Inv w) {turns : List (Bool × (Nat → Bool) × Nat)}
    (clean : Clean w (w.bumpAndTagEach turns).2) :
    Inv (w.bumpAndTagEach turns).1 ∧ NonzeroWrites (w.bumpAndTagEach turns).2 := by
  induction turns generalizing w with
  | nil => exact ⟨inv, by simp [World.bumpAndTagEach, NonzeroWrites]⟩
  | cons turn rest ih =>
    obtain ⟨tagging, grows, cls⟩ := turn
    have ⟨inv₁, nonzero₁⟩ := inv.bumpAndTag clean.left
    have ⟨inv₂, nonzero₂⟩ := ih inv₁ (clean.right (by simp))
    exact ⟨inv₂, nonzero₁.append nonzero₂⟩

/-- Every call keeps the invariant when its own events meet the premises. -/
theorem call (inv : Inv w) (jvm : Jvm) (call : Call) (clean : Clean w (call.run jvm w).log) :
    Inv (call.run jvm w).world ∧ NonzeroWrites (call.run jvm w).log := by
  rcases Call.run_cases jvm w call with ⟨_, _, _, _, world, log⟩ | ⟨turns, world, log⟩ | ⟨world, log⟩ <;>
    rw [log] at clean <;> rw [world, log]
  · exact inv.clearAndTag clean
  · exact inv.bumpAndTagEach clean
  · exact ⟨inv.advanceEpoch.1, by simp [NonzeroWrites]⟩

end Inv

/-- With distinct identities and unique nonzero tags, at most one object carries
a nonzero tag. -/
private theorem filter_tag_length {w : World} (inv : Inv w) {tag : Nat} (tagged : tag ≠ 0) :
    (w.heap.filter fun o => o.tag ∈ [tag]).length ≤ 1 := by
  have nodup : ((w.heap.filter fun o => o.tag ∈ [tag]).map Obj.ref).Nodup :=
    inv.distinct.sublist ((List.filter_sublist _).map _)
  have same : ∀ o₁ ∈ w.heap.filter (fun o => o.tag ∈ [tag]), ∀ o₂ ∈ w.heap.filter (fun o => o.tag ∈ [tag]),
      o₁.ref = o₂.ref := by
    simp only [List.mem_filter, List.mem_singleton, decide_eq_true_eq]
    intro o₁ member₁ o₂ member₂
    exact inv.unique o₁ member₁.1 o₂ member₂.1 (member₁.2.trans member₂.2.symm) (member₁.2 ▸ tagged)
  generalize w.heap.filter (fun o => o.tag ∈ [tag]) = found at nodup same
  rcases found with _ | ⟨a, _ | ⟨b, rest⟩⟩
  · simp
  · simp
  · simp only [List.map_cons, List.nodup_cons, List.mem_cons, not_or] at nodup
    exact absurd (same a (by simp) b (by simp)) nodup.1.1

/-- With distinct identities and unique nonzero tags, `nativeResolve` answers
exactly the object that carries a nonzero tag, and nothing for the tag 0. -/
theorem nativeResolve_unique (jvm : Jvm) {s : Native} (inv : Inv s.world) (tag : Nat) (o : Obj) :
    ((nativeResolve jvm true tag).run s).1 = some o ↔ tag ≠ 0 ∧ o ∈ s.world.heap ∧ o.tag = tag := by
  rw [nativeResolve_result]
  by_cases zero : tag = 0
  · simp [zero]
  · have perm := jvm.reports s.world.heap [tag]
    have short := filter_tag_length inv zero
    have carries : ∀ x, x ∈ s.world.heap.filter (fun o => o.tag ∈ [tag]) ↔ x ∈ s.world.heap ∧ x.tag = tag := by
      simp
    rw [if_pos (show true = true ∧ tag ≠ 0 from ⟨rfl, zero⟩)]
    simp only [ne_eq, zero, not_false_eq_true, true_and]
    generalize s.world.heap.filter (fun o => o.tag ∈ [tag]) = found at perm short carries
    rcases found with _ | ⟨x, _ | ⟨y, rest⟩⟩
    · rw [List.perm_nil.mp perm]
      simp only [List.not_mem_nil, false_iff] at carries
      simpa using carries o
    · simp only [List.perm_singleton.mp perm, List.head?_cons, Option.some.injEq, List.mem_singleton] at carries ⊢
      rw [← carries o, eq_comm]
    · simp at short

/-- Along every run whose events meet the premises the invariant holds, the
epoch counts the advances, and no pass wrote a zero tag. -/
theorem Run.inv {jvm : Jvm} {init w : World} {log : List Event} (run : Run jvm init w log) (start : Inv init)
    (clean : Clean init log) : Inv w ∧ w.epoch = init.epoch + log.count .bump ∧ NonzeroWrites log := by
  induction run with
  | start => exact ⟨start, rfl, by simp [NonzeroWrites]⟩
  | @call w log call _ ih =>
    obtain ⟨inv, epoch, nonzero⟩ := ih clean.left
    have ⟨kept, nonzero'⟩ := inv.call jvm call (clean.right epoch)
    refine ⟨kept, ?_, nonzero.append nonzero'⟩
    rw [Call.run_epoch, epoch, List.count_append]
    omega
  | collect _ collects ih =>
    obtain ⟨inv, epoch, nonzero⟩ := ih clean
    exact ⟨inv.collect collects, by rw [collects.epoch, epoch], nonzero⟩

end HeapAgent
