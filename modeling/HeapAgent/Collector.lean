import Mathlib.Data.List.Basic
import Mathlib.Algebra.Order.Ring.Nat

/-! The growable tag buffer `tag_collector_t` and its `tag_add`. The array's first
`count` slots are kept as a list; `realloc` is an answer from outside, so every
pattern of allocation failures is an input to the model. -/

namespace HeapAgent

/-- `tag_collector_t`: the tags stored so far, the slot count, the allocated
capacity and whether a growth has failed. -/
structure TagCollector where
  tags : List Nat
  count : Nat
  capacity : Nat
  allocFailed : Bool
  deriving Repr, DecidableEq

namespace TagCollector

/-- The collector after `memset(&col, 0, sizeof(col))`. -/
def empty : TagCollector := ⟨[], 0, 0, false⟩

/-- The buffer `tags` points to: `NULL` until the first successful growth. -/
def holdsBuffer (c : TagCollector) : Bool := c.capacity ≠ 0

end TagCollector

/-- The capacity after `n` successful appends to the zeroed collector: 128 at
the first append, doubled whenever the array is full. -/
def capacityAfter : Nat → Nat
  | 0 => 0
  | n + 1 => if capacityAfter n ≤ n then (if capacityAfter n = 0 then 128 else capacityAfter n * 2) else capacityAfter n

theorem le_capacityAfter (n : Nat) : n ≤ capacityAfter n := by
  induction n with
  | zero => exact Nat.le_refl 0
  | succ n ih =>
    unfold capacityAfter
    split_ifs <;> omega

theorem capacityAfter_shape (n : Nat) : capacityAfter n = 0 ∨ ∃ k, capacityAfter n = 128 * 2 ^ k := by
  induction n with
  | zero => exact .inl rfl
  | succ n ih =>
    unfold capacityAfter
    split_ifs with full empty
    · exact .inr ⟨0, rfl⟩
    · obtain zero | ⟨k, power⟩ := ih
      · exact absurd zero empty
      · exact .inr ⟨k + 1, by rw [power, Nat.pow_succ, Nat.mul_assoc]⟩
    · exact ih

/-- Below a capacity the array is not full, so the capacity stays. -/
theorem capacityAfter_stays {m : Nat} (i : Nat) (inside : m + i ≤ capacityAfter m) :
    capacityAfter (m + i) = capacityAfter m := by
  induction i with
  | zero => rfl
  | succ i ih =>
    rw [← Nat.add_assoc, capacityAfter, ih (by omega), if_neg (by omega)]

/-- The capacity after `128 * 2 ^ k` appends is exactly `128 * 2 ^ k`. -/
theorem capacityAfter_pow (k : Nat) : capacityAfter (128 * 2 ^ k) = 128 * 2 ^ k := by
  induction k with
  | zero => exact capacityAfter_stays (m := 1) 127 (by decide)
  | succ k ih =>
    have pos : 0 < 128 * 2 ^ k := Nat.mul_pos (by decide) (Nat.two_pow_pos k)
    rw [Nat.pow_succ, ← Nat.mul_assoc]
    generalize 128 * 2 ^ k = c at ih pos
    have grown : capacityAfter (c + 1) = c * 2 := by rw [capacityAfter, ih, if_pos (Nat.le_refl _), if_neg (by omega)]
    have stays := capacityAfter_stays (m := c + 1) (c - 1) (by rw [grown]; omega)
    rwa [grown, show c + 1 + (c - 1) = c * 2 by omega] at stays

namespace TagCollector

/-- The collector after the successful appends of `tags` to the zeroed one, with
a failed growth behind it or not. -/
def reached (tags : List Nat) (failed : Bool) : TagCollector := ⟨tags, tags.length, capacityAfter tags.length, failed⟩

@[simp] theorem reached_nil : reached [] false = empty := rfl
@[simp] theorem reached_tags (tags : List Nat) (failed : Bool) : (reached tags failed).tags = tags := rfl
@[simp] theorem reached_count (tags : List Nat) (failed : Bool) : (reached tags failed).count = tags.length := rfl
@[simp] theorem reached_capacity (tags : List Nat) (failed : Bool) :
    (reached tags failed).capacity = capacityAfter tags.length := rfl
@[simp] theorem reached_allocFailed (tags : List Nat) (failed : Bool) : (reached tags failed).allocFailed = failed :=
  rfl

end TagCollector

/-- `tag_add`. `grows` is what `realloc` answers if this call has to grow the
array; the Boolean is `true` where the source returns 0. -/
def tagAdd (grows : Bool) (c : TagCollector) (tag : Nat) : Bool × TagCollector :=
  if c.allocFailed then (false, c)
  else if c.count ≥ c.capacity then
    let newCap := if c.capacity = 0 then 128 else c.capacity * 2
    if grows then (true, { c with tags := c.tags ++ [tag], count := c.count + 1, capacity := newCap })
    else (false, { c with allocFailed := true })
  else (true, { c with tags := c.tags ++ [tag], count := c.count + 1 })

/-- What one `tag_add` does: it appends, or it refuses and keeps the stored tags. -/
theorem tagAdd_cases (grows : Bool) (c : TagCollector) (tag : Nat) :
    ((tagAdd grows c tag).1 = true ∧ (tagAdd grows c tag).2.tags = c.tags ++ [tag] ∧
        (tagAdd grows c tag).2.count = c.count + 1 ∧ (tagAdd grows c tag).2.allocFailed = false) ∨
      ((tagAdd grows c tag).1 = false ∧ (tagAdd grows c tag).2.tags = c.tags ∧
        (tagAdd grows c tag).2.count = c.count ∧ (tagAdd grows c tag).2.allocFailed = true) := by
  unfold tagAdd
  by_cases failed : c.allocFailed
  · simp [failed]
  · simp only [failed, Bool.false_eq_true, if_false]
    split
    · cases grows <;> simp [failed]
    · simp [failed]

/-- Once every growth the collector asks for succeeds, `tag_add` succeeds. -/
theorem tagAdd_ok {c : TagCollector} (healthy : c.allocFailed = false) (tag : Nat) :
    (tagAdd true c tag).1 = true := by
  unfold tagAdd
  simp only [healthy, Bool.false_eq_true, if_false]
  split <;> rfl

/-- `tag_add` on a reached collector: a failed one refuses; a healthy one appends,
unless the array is full and `realloc` fails, which sets `alloc_failed`. -/
theorem tagAdd_reached (grows : Bool) (tags : List Nat) (failed : Bool) (tag : Nat) :
    tagAdd grows (.reached tags failed) tag =
      if failed ∨ (capacityAfter tags.length ≤ tags.length ∧ grows = false) then (false, .reached tags true)
      else (true, .reached (tags ++ [tag]) false) := by
  cases failed
  · by_cases full : capacityAfter tags.length ≤ tags.length
    · cases grows <;> simp [tagAdd, TagCollector.reached, full, capacityAfter]
    · simp [tagAdd, TagCollector.reached, full, capacityAfter]
  · simp [tagAdd, TagCollector.reached]

/-- A sequence of `tag_add` calls from `c`, each with what `realloc` answers if
the call grows the array and the tag it adds: the results in call order and the
collector after them. -/
def tagAddAll (c : TagCollector) : List (Bool × Nat) → List Bool × TagCollector
  | [] => ([], c)
  | (grows, tag) :: rest =>
    let first := tagAdd grows c tag
    let after := tagAddAll first.2 rest
    (first.1 :: after.1, after.2)

/-- Every run of `tag_add` calls from a reached collector reaches one, holding
besides the tags of the calls that returned 0, in call order. -/
theorem tagAddAll_reached (tags : List Nat) (failed : Bool) (calls : List (Bool × Nat)) :
    ∃ failed', (tagAddAll (.reached tags failed) calls).2 =
      .reached (tags ++ ((calls.zip (tagAddAll (.reached tags failed) calls).1).filter (·.2)).map (·.1.2)) failed' := by
  induction calls generalizing tags failed with
  | nil => exact ⟨failed, by simp [tagAddAll]⟩
  | cons call rest ih =>
    obtain ⟨grows, tag⟩ := call
    simp only [tagAddAll, tagAdd_reached]
    split
    · simpa using ih tags true
    · simpa using ih (tags ++ [tag]) false

/-- `tag_add` of each of `tags` in turn, `realloc` answering `grows n` for a
growth asked with `n` tags stored: the collector `heap_tagging_cb` leaves. -/
def tagAddEach (grows : Nat → Bool) (c : TagCollector) : List Nat → TagCollector
  | [] => c
  | tag :: rest => tagAddEach grows (tagAdd (grows c.count) c tag).2 rest

theorem tagAddEach_append (grows : Nat → Bool) (c : TagCollector) (tags more : List Nat) :
    tagAddEach grows c (tags ++ more) = tagAddEach grows (tagAddEach grows c tags) more := by
  induction tags generalizing c with
  | nil => rfl
  | cons tag rest ih => exact ih _

theorem tagAddEach_failed (grows : Nat → Bool) (tags more : List Nat) :
    tagAddEach grows (.reached tags true) more = .reached tags true := by
  induction more with
  | nil => rfl
  | cons tag rest ih => simpa [tagAddEach, tagAdd_reached] using ih

/-- Appends whose growths are all granted store every tag. -/
theorem tagAddEach_granted (grows : Nat → Bool) (tags more : List Nat)
    (granted : ∀ i < more.length, capacityAfter (tags.length + i) ≤ tags.length + i → grows (tags.length + i) = true) :
    tagAddEach grows (.reached tags false) more = .reached (tags ++ more) false := by
  induction more generalizing tags with
  | nil => simp [tagAddEach]
  | cons tag rest ih =>
    have first : ¬(capacityAfter tags.length ≤ tags.length ∧ grows tags.length = false) := fun ⟨full, refused⟩ => by
      simpa [refused] using granted 0 (by simp) full
    have later := ih (tags ++ [tag]) fun i inside full => by
      simpa [Nat.add_assoc, Nat.add_comm 1] using
        granted (i + 1) (by simp; omega) (by simpa [Nat.add_assoc, Nat.add_comm 1] using full)
    simpa [tagAddEach, tagAdd_reached, first] using later

/-- The zeroed collector after the appends of `tags`, when the growths asked
with fewer than `m` tags stored are granted and `m` is the number of tags or
the count at a refused growth: it holds the first `m` tags, and has
`alloc_failed` set unless it took them all. -/
theorem tagAddEach_stops (grows : Nat → Bool) (tags : List Nat) {m : Nat}
    (granted : ∀ i < m, capacityAfter i ≤ i → grows i = true)
    (stops : m = tags.length ∨ m < tags.length ∧ capacityAfter m ≤ m ∧ grows m = false) :
    tagAddEach grows .empty tags = .reached (tags.take m) (decide (m < tags.length)) := by
  rw [← TagCollector.reached_nil]
  rcases stops with rfl | ⟨inside, full, refused⟩
  · simpa using tagAddEach_granted grows [] tags (by simpa using granted)
  · rw [← List.take_append_drop m tags, tagAddEach_append,
      tagAddEach_granted grows [] _ (by simpa [Nat.min_eq_left inside.le] using granted),
      List.drop_eq_getElem_cons inside]
    simp [tagAddEach, tagAdd_reached, Nat.min_eq_left inside.le, full, refused, tagAddEach_failed, inside]

/-- For every sequence of `tag_add` calls from the zeroed collector and every
pattern of `realloc` answers: `count ≤ capacity`, the capacity is 0 or
`128 * 2 ^ k`, and the first `count` slots hold the tags of the calls that
returned 0, in call order. The next call, when it succeeds, stores below the
capacity; it returns 0 exactly when `alloc_failed` is clear after it, a flag it
sets only on a failed growth; and once the flag is set every call returns -1 and
changes nothing. -/
theorem tagAdd_runs_keep_collector (calls : List (Bool × Nat)) (c : TagCollector)
    (after : (tagAddAll .empty calls).2 = c) :
    c.count ≤ c.capacity ∧ (c.capacity = 0 ∨ ∃ k, c.capacity = 128 * 2 ^ k) ∧ c.tags.length = c.count ∧
      c.tags = ((calls.zip (tagAddAll .empty calls).1).filter (·.2)).map (·.1.2) ∧
      ∀ grows tag, ((tagAdd grows c tag).1 = true → c.count < (tagAdd grows c tag).2.capacity) ∧
        (tagAdd grows c tag).1 = !(tagAdd grows c tag).2.allocFailed ∧
        (tagAdd grows c tag).2.allocFailed = (c.allocFailed || (decide (c.capacity ≤ c.count) && !grows)) ∧
        (c.allocFailed = true → tagAdd grows c tag = (false, c)) := by
  obtain ⟨failed, reached⟩ := tagAddAll_reached [] false calls
  rw [TagCollector.reached_nil, List.nil_append] at reached
  rw [← after, reached]
  refine ⟨le_capacityAfter _, capacityAfter_shape _, rfl, rfl, fun grows tag => ?_⟩
  generalize ((calls.zip (tagAddAll .empty calls).1).filter (·.2)).map (·.1.2) = stored
  have room : stored.length < capacityAfter (stored.length + 1) :=
    Nat.lt_of_lt_of_le (Nat.lt_succ_self _) (le_capacityAfter _)
  rw [tagAdd_reached]
  cases failed <;> cases grows <;> by_cases full : capacityAfter stored.length ≤ stored.length <;>
    simp [full, room, TagCollector.reached]

/-- A first call refused its growth leaves a failed collector, which refuses the
next call even with `realloc` granting it. -/
theorem tagAdd_runs_keep_collector_refused :
    tagAdd true (tagAddAll .empty [(false, 7)]).2 9 = (false, (tagAddAll .empty [(false, 7)]).2) :=
  ((tagAdd_runs_keep_collector [(false, 7)] _ rfl).2.2.2.2 true 9).2.2.2 rfl

/-! The `jint` values `tag_add` computes. The model counts in `Nat`; it is the
source's arithmetic as long as none of these values passes `INT32_MAX`. -/

/-- The `jint` values one `tag_add` computes: `c->capacity * 2` when a full
nonempty array is grown, and `c->count++` when the tag is stored. -/
def tagAddArith (grows : Bool) (c : TagCollector) : List Nat :=
  if c.allocFailed then []
  else if c.count ≥ c.capacity then
    (if c.capacity = 0 then [] else [c.capacity * 2]) ++ (if grows then [c.count + 1] else [])
  else [c.count + 1]

/-- The `jint` values a sequence of `tag_add` calls computes, in call order. -/
def tagAddAllArith (c : TagCollector) : List (Bool × Nat) → List Nat
  | [] => []
  | (grows, tag) :: rest => tagAddArith grows c ++ tagAddAllArith (tagAdd grows c tag).2 rest

theorem tagAdd_fits {c : TagCollector} (fits : c.count ≤ c.capacity) (grows : Bool) (tag : Nat) :
    (tagAdd grows c tag).2.count ≤ (tagAdd grows c tag).2.capacity := by
  unfold tagAdd
  split_ifs <;> simp only <;> omega

theorem tagAdd_count_le (grows : Bool) (c : TagCollector) (tag : Nat) : (tagAdd grows c tag).2.count ≤ c.count + 1 := by
  rcases tagAdd_cases grows c tag with ⟨-, -, count, -⟩ | ⟨-, -, count, -⟩ <;> omega

/-- A call on a collector with `count ≤ capacity` only doubles a capacity equal
to `count`, so each of its values is at most `2 * count + 1`. -/
theorem tagAddArith_le {c : TagCollector} (fits : c.count ≤ c.capacity) (grows : Bool) :
    ∀ v ∈ tagAddArith grows c, v ≤ 2 * c.count + 1 := by
  intro v member
  unfold tagAddArith at member
  split_ifs at member <;>
    simp only [List.mem_append, List.mem_singleton, List.not_mem_nil, List.nil_append, List.append_nil] at member <;>
    omega

/-- Over a run, each value is below twice the number of tags the collector
could hold by then. -/
theorem tagAddAllArith_le {c : TagCollector} (fits : c.count ≤ c.capacity) (calls : List (Bool × Nat)) :
    ∀ v ∈ tagAddAllArith c calls, v + 1 ≤ 2 * (c.count + calls.length) := by
  induction calls generalizing c with
  | nil => simp [tagAddAllArith]
  | cons call rest ih =>
    obtain ⟨grows, tag⟩ := call
    intro v member
    rcases List.mem_append.mp member with here | later
    · have := tagAddArith_le fits grows v here
      simp only [List.length_cons]
      omega
    · have := ih (tagAdd_fits fits grows tag) v later
      have := tagAdd_count_le grows c tag
      simp only [List.length_cons]
      omega

theorem tagAddAllArith_append (c : TagCollector) (calls more : List (Bool × Nat)) :
    tagAddAllArith c (calls ++ more) = tagAddAllArith c calls ++ tagAddAllArith (tagAddAll c calls).2 more := by
  induction calls generalizing c with
  | nil => rfl
  | cons call rest ih => simp [tagAddAllArith, tagAddAll, ih]

/-- Calls whose growths are all granted store every tag. -/
theorem tagAddAll_granted (tags : List Nat) (n tag : Nat) :
    (tagAddAll (.reached tags false) (List.replicate n (true, tag))).2 = .reached (tags ++ List.replicate n tag) false := by
  induction n generalizing tags with
  | zero => simp [tagAddAll]
  | succ n ih => simp [List.replicate_succ, tagAddAll, tagAdd_reached, ih]

/-- With every growth granted, the call that finds `128 * 2 ^ k` tags stored
in a full array computes `capacity * 2 = 256 * 2 ^ k`. -/
theorem tagAddAllArith_doubles (k tag : Nat) :
    128 * 2 ^ k * 2 ∈ tagAddAllArith .empty (List.replicate (128 * 2 ^ k + 1) (true, tag)) := by
  rw [List.replicate_succ', tagAddAllArith_append, ← TagCollector.reached_nil, tagAddAll_granted]
  apply List.mem_append_right
  have pos : 0 < 128 * 2 ^ k := Nat.mul_pos (by decide) (Nat.two_pow_pos k)
  simp [tagAddAllArith, tagAddArith, capacityAfter_pow, Nat.pos_iff_ne_zero.mp pos]

end HeapAgent
