import Mathlib.Data.Nat.Bitwise
import Mathlib.Data.List.Basic
import Mathlib.Algebra.Order.Ring.Nat

/-! The snapshot wire format. The packing loop of `nativeSnapshotBytes` writes a
4-byte big-endian count, then per entry an 8-byte big-endian tag, a 4-byte
big-endian name length and the name bytes. The decoder reads the layout of the
specification; the packing loop is its right inverse on every entry list whose
count and name lengths fit an `int`. -/

namespace HeapAgent

/-- The byte `(unsigned char)(n & 0xFF)`. -/
def lowByte (n : Nat) : UInt8 := UInt8.ofNat (n &&& 0xFF)

/-- `p[0] = (n >> 24) & 0xFF; ... p[3] = n & 0xFF;` for the count and the lengths. -/
def be32 (n : Nat) : List UInt8 :=
  [lowByte (n >>> 24), lowByte (n >>> 16), lowByte (n >>> 8), lowByte n]

/-- `for (b = width - 1; b >= 0; b--) { p[b] = ut & 0xFF; ut >>= 8; }`: the bytes
`p[0] .. p[width - 1]`, the last one written first. -/
def beLoop : Nat → Nat → List UInt8
  | 0, _ => []
  | width + 1, ut => beLoop width (ut >>> 8) ++ [lowByte ut]

/-- One turn of the packing loop: tag, length, and the name when `names[i]` is a
copy (it then holds exactly `lens[i]` bytes). -/
def packEntry (tag : Nat) (name : Option (List UInt8)) (len : Nat) : List UInt8 :=
  beLoop 8 tag ++ be32 len ++ (if len > 0 then name.getD [] else [])

/-- The packing loop over `(tagsOut[i], names[i], lens[i])`. -/
def packEntries : List (Nat × Option (List UInt8) × Nat) → List UInt8
  | [] => []
  | (tag, name, len) :: rest => packEntry tag name len ++ packEntries rest

/-- Every byte the packing code writes from `p = buf`. -/
def packSnapshot (found : Nat) (entries : List (Nat × Option (List UInt8) × Nat)) : List UInt8 :=
  be32 found ++ packEntries entries

/-- The bytes, most significant first, as a number. -/
def fromBE (bytes : List UInt8) : Nat := bytes.foldl (fun acc b => acc * 256 + b.toNat) 0

/-- A big-endian field of `width` bytes and what follows it. -/
def readBE (width : Nat) (bytes : List UInt8) : Option (Nat × List UInt8) :=
  if width ≤ bytes.length then some (fromBE (bytes.take width), bytes.drop width) else none

/-- `count` entries: tag, length, name bytes. -/
def decodeEntries : Nat → List UInt8 → Option (List (Nat × List UInt8) × List UInt8)
  | 0, bytes => some ([], bytes)
  | count + 1, bytes => do
    let (tag, bytes) ← readBE 8 bytes
    let (len, bytes) ← readBE 4 bytes
    if len ≤ bytes.length then
      let (entries, rest) ← decodeEntries count (bytes.drop len)
      some ((tag, bytes.take len) :: entries, rest)
    else none

/-- The layout of the specification: the count, that many entries, and nothing
after them. -/
def decodeSnapshot (bytes : List UInt8) : Option (List (Nat × List UInt8)) := do
  let (count, bytes) ← readBE 4 bytes
  let (entries, rest) ← decodeEntries count bytes
  if rest = [] then some entries else none

@[simp] theorem lowByte_toNat (n : Nat) : (lowByte n).toNat = n % 256 := by
  have mask : n &&& 0xFF = n % 2 ^ 8 := Nat.and_pow_two_sub_one_eq_mod n 8
  simp [lowByte, UInt8.ofNat, UInt8.toNat, Fin.ofNat, mask]

@[simp] theorem beLoop_length (width n : Nat) : (beLoop width n).length = width := by
  induction width generalizing n with
  | zero => rfl
  | succ width ih => simp [beLoop, ih]

theorem be32_eq_beLoop (n : Nat) : be32 n = beLoop 4 n := by
  simp only [be32, beLoop, ← Nat.shiftRight_add, List.nil_append, List.cons_append, List.singleton_append]

@[simp] theorem fromBE_append_byte (bytes : List UInt8) (b : UInt8) :
    fromBE (bytes ++ [b]) = fromBE bytes * 256 + b.toNat := by
  simp [fromBE, List.foldl_append]

/-- Reading back `width` bytes gives the number modulo `256 ^ width`. -/
theorem fromBE_beLoop (width n : Nat) : fromBE (beLoop width n) = n % 256 ^ width := by
  induction width generalizing n with
  | zero => simp [beLoop, fromBE, Nat.mod_one]
  | succ width ih =>
    have shift : n >>> 8 = n / 256 := Nat.shiftRight_eq_div_pow n 8
    rw [beLoop, fromBE_append_byte, ih, lowByte_toNat, shift, Nat.pow_succ', Nat.mod_mul]
    omega

theorem readBE_beLoop (width n : Nat) (rest : List UInt8) :
    readBE width (beLoop width n ++ rest) = some (n % 256 ^ width, rest) := by
  simp [readBE, List.take_left', List.drop_left', fromBE_beLoop]

/-- `names[i]` and `lens[i]` for a resolved name: a copy when the name is not
empty, `NULL` when it is. -/
def nameSlot (name : List UInt8) : Option (List UInt8) × Nat :=
  (if name.length > 0 then some name else none, name.length)

theorem packEntry_nameSlot (tag : Nat) (name : List UInt8) :
    packEntry tag (if name.length > 0 then some name else none) name.length =
      beLoop 8 tag ++ beLoop 4 name.length ++ name := by
  rw [packEntry, be32_eq_beLoop]
  by_cases empty : name.length > 0 <;> simp_all

/-- The entries decode back from the packing loop's bytes, whatever follows. -/
theorem decodeEntries_packEntries (entries : List (Nat × List UInt8)) (rest : List UInt8)
    (fits : ∀ e ∈ entries, e.1 < 256 ^ 8 ∧ e.2.length < 256 ^ 4) :
    decodeEntries entries.length (packEntries (entries.map fun e => (e.1, nameSlot e.2)) ++ rest) =
      some (entries, rest) := by
  induction entries with
  | nil => rfl
  | cons entry entries ih =>
    obtain ⟨tag, name⟩ := entry
    have ⟨tagFits, nameFits⟩ := fits (tag, name) (List.mem_cons_self _ _)
    have restFits : ∀ e ∈ entries, e.1 < 256 ^ 8 ∧ e.2.length < 256 ^ 4 :=
      fun e member => fits e (List.mem_cons_of_mem _ member)
    simp only [List.map_cons, packEntries, packEntry_nameSlot, List.length_cons, decodeEntries,
      List.append_assoc, readBE_beLoop, Nat.mod_eq_of_lt tagFits, Nat.mod_eq_of_lt nameFits,
      List.length_append, Nat.le_add_right, if_true, List.take_left', List.drop_left', ih restFits,
      Option.bind_eq_bind, Option.some_bind]

theorem packEntries_length (entries : List (Nat × List UInt8)) :
    (packEntries (entries.map fun e => (e.1, nameSlot e.2))).length = (entries.map fun e => 12 + e.2.length).sum := by
  induction entries with
  | nil => rfl
  | cons entry entries ih =>
    simp only [List.map_cons, packEntries, packEntry_nameSlot, List.length_append, beLoop_length, ih,
      List.sum_cons]

/-- The packing loop writes 4 bytes, then 12 and the name per entry. -/
theorem packSnapshot_length (found : Nat) (entries : List (Nat × List UInt8)) :
    (packSnapshot found (entries.map fun e => (e.1, nameSlot e.2))).length = 4 + (entries.map fun e => 12 + e.2.length).sum := by
  simp only [packSnapshot, be32, List.length_append, packEntries_length, List.length_cons, List.length_nil]

theorem decodeSnapshot_packSnapshot (entries : List (Nat × List UInt8)) (count : entries.length < 256 ^ 4)
    (fits : ∀ e ∈ entries, e.1 < 256 ^ 8 ∧ e.2.length < 256 ^ 4) :
    decodeSnapshot (packSnapshot entries.length (entries.map fun e => (e.1, nameSlot e.2))) = some entries := by
  have decoded := decodeEntries_packEntries entries [] fits
  rw [List.append_nil] at decoded
  simp only [decodeSnapshot, packSnapshot, be32_eq_beLoop, readBE_beLoop, Nat.mod_eq_of_lt count, decoded,
    Option.bind_eq_bind, Option.some_bind, if_true]

/-- The packing loop and the layout of the specification agree on every entry
list whose count and name lengths fit an `int`: the entries come back, every
written byte is read, and so distinct lists never share an encoding. -/
theorem packSnapshot_roundTrip (entries : List (UInt64 × List UInt8)) (count : entries.length < 2 ^ 31)
    (short : ∀ e ∈ entries, e.2.length < 2 ^ 31) :
    decodeSnapshot (packSnapshot entries.length (entries.map fun e => (e.1.toNat, nameSlot e.2))) =
        some (entries.map fun e => (e.1.toNat, e.2)) ∧
      (packSnapshot entries.length (entries.map fun e => (e.1.toNat, nameSlot e.2))).length =
        4 + (entries.map fun e => 12 + e.2.length).sum ∧
      ∀ others : List (UInt64 × List UInt8), others.length < 2 ^ 31 → (∀ e ∈ others, e.2.length < 2 ^ 31) →
        packSnapshot others.length (others.map fun e => (e.1.toNat, nameSlot e.2)) =
          packSnapshot entries.length (entries.map fun e => (e.1.toNat, nameSlot e.2)) → others = entries := by
  have decodes : ∀ list : List (UInt64 × List UInt8), list.length < 2 ^ 31 → (∀ e ∈ list, e.2.length < 2 ^ 31) →
      decodeSnapshot (packSnapshot list.length (list.map fun e => (e.1.toNat, nameSlot e.2))) =
        some (list.map fun e => (e.1.toNat, e.2)) := by
    intro list count short
    have fits : ∀ e ∈ list.map (fun e => (e.1.toNat, e.2)), e.1 < 256 ^ 8 ∧ e.2.length < 256 ^ 4 := by
      simp only [List.mem_map]
      rintro _ ⟨e, member, rfl⟩
      have tag := e.1.toNat_lt_size
      have name := short e member
      unfold UInt64.size at tag
      exact ⟨tag, show e.2.length < 256 ^ 4 by omega⟩
    have := decodeSnapshot_packSnapshot _ (by simp only [List.length_map]; omega) fits
    simpa only [List.map_map, List.length_map, Function.comp_def] using this
  refine ⟨decodes entries count short, ?_, fun others othersCount othersShort same => ?_⟩
  · have := packSnapshot_length entries.length (entries.map fun e => (e.1.toNat, e.2))
    simpa only [List.map_map, Function.comp_def] using this
  · have equal := (decodes others othersCount othersShort).symm.trans (same ▸ decodes entries count short)
    have injective : Function.Injective fun e : UInt64 × List UInt8 => (e.1.toNat, e.2) := by
      rintro ⟨t, s⟩ ⟨t', s'⟩ agree
      simp only [Prod.mk.injEq] at agree
      rw [UInt64.toNat.inj agree.1, agree.2]
    exact List.map_injective_iff.mpr injective (Option.some.inj equal)

/-- The example of the specification: `{(tag = 5, name = "A")}` packs to
`00000001 0000000000000005 00000001 41` and decodes back. -/
theorem packSnapshot_specExample :
    ([((5 : UInt64), ([65] : List UInt8))].length < 2 ^ 31 ∧
        ∀ e ∈ [((5 : UInt64), ([65] : List UInt8))], e.2.length < 2 ^ 31) ∧
      packSnapshot 1 [(5, nameSlot [65])] = [0, 0, 0, 1, 0, 0, 0, 0, 0, 0, 0, 5, 0, 0, 0, 1, 65] ∧
      decodeSnapshot (packSnapshot 1 [(5, nameSlot [65])]) = some [(5, [65])] :=
  ⟨⟨by decide, by decide⟩, rfl, (packSnapshot_roundTrip [(5, [65])] (by decide) (by decide)).1⟩

end HeapAgent
