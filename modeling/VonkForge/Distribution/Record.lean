import VonkForge.Foundations.Slices
import VonkForge.Distribution.Fetch

/-
  The checkpoint of a partial file.

  A file that is at most as long as its object is a prefix of it. A longer one carries a record
  behind the object's bytes: a magic, the size of the ranges and one bit for each range whose bytes
  are written and synced. Offsets are unbounded here: an object has at most 16 TiB.

  Source: `RangeRecord`, `range_end` and `read_record` of the agent's client.

  Main declarations:
    * `rangeEnd`
    * `bit`
    * `bit_prefixBitmap`
    * `remaining_le_total`
-/

namespace VonkForge.Distribution

----
-- The Grid of Ranges
----

/- The last byte of range `index`. -/
def rangeEnd (index rangeBytes total : Nat) : Nat :=
  min (total - 1) (index * rangeBytes + (rangeBytes - 1))

variable (total rangeBytes : Nat)

/- `total.div_ceil(range_bytes)`. -/
def rangeCount : Nat := Slices.count rangeBytes total

def bitmapLen : Nat := Slices.count 8 (rangeCount total rangeBytes)

/- A range of the grid is in the object. -/
theorem mul_lt_of_lt_rangeCount {index rangeBytes total : Nat}
    (hIndex : index < rangeCount total rangeBytes) : index * rangeBytes < total :=
  Slices.mul_lt_of_lt_count hIndex

/- A range is as long as the slice it stands for. -/
theorem rangeEnd_succ {index rangeBytes total : Nat} (hBytes : 0 < rangeBytes)
    (hTotal : 0 < total) :
    rangeEnd index rangeBytes total + 1 = min total (index * rangeBytes + rangeBytes) := by
  unfold rangeEnd
  omega

----
-- Bits
----

variable (bitmap : List UInt8) (index : Nat)

/- `bitmap[index / 8] & (1 << (index % 8)) != 0`. -/
def bit : Bool := (bitmap.getD (index / 8) 0).toNat.testBit (index % 8)

/- `1 << (index % 8)`. -/
def mask : UInt8 := UInt8.ofNat (2 ^ (index % 8))

def setBit : List UInt8 := bitmap.set (index / 8) (bitmap.getD (index / 8) 0 ||| mask index)

@[simp] theorem length_setBit : (setBit bitmap index).length = bitmap.length := by simp [setBit]

theorem toNat_mask : (mask index).toNat = 2 ^ (index % 8) := by
  have hLt : index % 8 < 8 := Nat.mod_lt _ (by decide)
  have hPow : 2 ^ (index % 8) < 2 ^ 8 := Nat.pow_lt_pow_right (by decide) hLt
  rw [mask, UInt8.toNat_ofNat']
  exact Nat.mod_eq_of_lt hPow

/- A bit is on if it was on or is the one that is set. -/
theorem bit_setBit {bitmap : List UInt8} {index : Nat}
    (hIndex : index / 8 < bitmap.length) (other : Nat) :
    bit (setBit bitmap index) other = (bit bitmap other || decide (index = other)) := by
  unfold bit setBit
  by_cases hByte : index / 8 = other / 8
  · rw [← hByte]
    simp only [List.getD_eq_getElem?_getD, List.getElem?_set_self hIndex, Option.getD_some,
      UInt8.toNat_or, Nat.testBit_or, toNat_mask, Nat.testBit_two_pow]
    congr 1
    have hIff : index % 8 = other % 8 ↔ index = other := by omega
    simp [hIff]
  · have hOther : index ≠ other := by
      rintro rfl
      exact hByte rfl
    simp only [List.getD_eq_getElem?_getD,
      List.getElem?_set_ne hByte, hOther, decide_false, Bool.or_false]

/- A byte with no bit has none. -/
theorem bit_replicate (n index : Nat) : bit (List.replicate n 0) index = false := by
  unfold bit
  rw [List.getD_eq_getElem?_getD, List.getElem?_replicate]
  split
  · simp
  · simp

/- The bits of the ranges that end inside of a prefix. -/
def prefixBitmap (total rangeBytes held : Nat) : List UInt8 :=
  (List.range (rangeCount total rangeBytes)).foldl
    (fun bitmap index =>
      if rangeEnd index rangeBytes total < held then setBit bitmap index
      else bitmap)
    (List.replicate (bitmapLen total rangeBytes) 0)

/- Every range has its byte in the bitmap. -/
theorem byte_lt_bitmapLen {index total rangeBytes : Nat}
    (hIndex : index < rangeCount total rangeBytes) : index / 8 < bitmapLen total rangeBytes := by
  have hCount : rangeCount total rangeBytes ≤ bitmapLen total rangeBytes * 8 :=
    Slices.le_count_mul (by decide)
  omega

/- The fold of `prefixBitmap` over the first ranges. -/
theorem bit_prefixBitmap_upto {total rangeBytes held count : Nat}
    (hCount : count ≤ rangeCount total rangeBytes) :
    let bitmap := (List.range count).foldl
        (fun bitmap index =>
          if rangeEnd index rangeBytes total < held then setBit bitmap index
          else bitmap)
        (List.replicate (bitmapLen total rangeBytes) 0)
    bitmap.length = bitmapLen total rangeBytes ∧ ∀ index, bit bitmap index = true ↔
        index < count ∧ rangeEnd index rangeBytes total < held := by
  induction count with
  | zero => simp [bit_replicate]
  | succ count ih =>
    rcases ih (Nat.le_of_succ_le hCount) with ⟨hLength, hBits⟩
    have hByte := byte_lt_bitmapLen hCount
    simp only [List.range_succ, List.foldl_append, List.foldl_cons, List.foldl_nil] at *
    split
    · next hHeld =>
        refine ⟨by rw [length_setBit, hLength], ?_⟩
        intro _
        rw [bit_setBit (by rw [hLength]; exact hByte), Bool.or_eq_true, hBits, decide_eq_true_iff]
        constructor
        · rintro (⟨hLt, hEnd⟩ | rfl)
          · exact ⟨Nat.lt_succ_of_lt hLt, hEnd⟩
          · exact ⟨Nat.lt_succ_self _, hHeld⟩
        · rintro ⟨hLt, hEnd⟩
          rcases Nat.lt_succ_iff_lt_or_eq.mp hLt with hBefore | rfl
          · exact Or.inl ⟨hBefore, hEnd⟩
          · exact Or.inr rfl
    · next hOpen =>
        refine ⟨hLength, ?_⟩
        intro _
        rw [hBits]
        constructor
        · rintro ⟨hLt, hEnd⟩
          exact ⟨Nat.lt_succ_of_lt hLt, hEnd⟩
        · rintro ⟨hLt, hEnd⟩
          rcases Nat.lt_succ_iff_lt_or_eq.mp hLt with hBefore | rfl
          · exact ⟨hBefore, hEnd⟩
          · exact absurd hEnd hOpen

/- The bitmap of a prefix has the ranges that lie in it. -/
theorem bit_prefixBitmap (total rangeBytes held index : Nat) :
    bit (prefixBitmap total rangeBytes held) index ↔
      index < rangeCount total rangeBytes ∧
      rangeEnd index rangeBytes total < held := (bit_prefixBitmap_upto (Nat.le_refl _)).2 index

----
-- The Record in the File
----

/- `from_le_bytes`. -/
def fromLe : List UInt8 → Nat
  | [] => 0
  | byte :: bytes => byte.toNat + 256 * fromLe bytes

/- `RANGE_RECORD_MAGIC`: "vonkrng1". -/
def recordMagic : List UInt8 := [118, 111, 110, 107, 114, 110, 103, 49]

def recordHeader : Nat := 16

def recordMaxBitmap : Nat := 1024 * 1024

variable (file : List UInt8)

/- `read_exact_at`. -/
def readExactAt (place n : Nat) : Option (List UInt8) :=
  if place + n ≤ file.length then some ((file.drop place).take n)
  else none

/- What the record of a file reads as. -/
inductive Reading where
  -- The file ended before its length.
  | failed
  | absent
  | found (rangeBytes : Nat) (bitmap : List UInt8)
deriving DecidableEq

/- `read_record`, with the length the file was opened at. -/
def readRecord (length total : Nat) : Reading :=
  if length < total + recordHeader then .absent
  else
    match readExactAt file total 8, readExactAt file (total + 8) 8 with
    | some magic, some size =>
      if magic ≠ recordMagic ∨ fromLe size = 0 then .absent
      else if
          recordMaxBitmap < bitmapLen total (fromLe size) ∨
            length ≠ total + recordHeader + bitmapLen total (fromLe size) then
        .absent
      else
        match readExactAt file (total + recordHeader) (bitmapLen total (fromLe size)) with
        | some bitmap => .found (fromLe size) bitmap
        | none => .failed
    | _, _ => .failed

----
-- Ranges to Fetch
----

/- `RangeRecord::pending`. -/
def pendingRanges (held : Nat) : List PendingRange :=
  ((List.range (rangeCount total rangeBytes)).filter (fun index => !bit bitmap index)).map
    (fun index =>
      { index := index
        start := max (index * rangeBytes) held
        last := rangeEnd index rangeBytes total })

/- `RangeRecord`, without the file. -/
structure RangeRecord where
  total : Nat
  rangeBytes : Nat
  bitmap : List UInt8
  recorded : Bool
deriving DecidableEq

/- A checkpoint that was adopted. -/
structure Adopted where
  record : RangeRecord
  pending : List PendingRange
deriving DecidableEq

/- The record that a prefix of `held` bytes starts with. -/
def adoptPrefix (total rangeBytes held : Nat) : Adopted where
  record :=
    { total := total
      rangeBytes := rangeBytes
      bitmap := prefixBitmap total rangeBytes held
      recorded := decide
          (1 < (pendingRanges total rangeBytes (prefixBitmap total rangeBytes held) held).length) }
  pending := pendingRanges total rangeBytes (prefixBitmap total rangeBytes held) held

/- The record that was found in the file. -/
def adoptFound : Adopted where
  record := { total := total, rangeBytes := rangeBytes, bitmap := bitmap, recorded := true }
  pending := pendingRanges total rangeBytes bitmap 0

/- The prefix that is kept of a file without a record. -/
def heldOf (length total : Nat) : Nat :=
  if total < length then 0
  else length

/-
  What `RangeRecord::adopt` makes of a file. It also writes the record of a prefix with several
  ranges left, and cuts a damaged file.
-/
def adopt (length total rangeBytes : Nat) : Option Adopted :=
  match readRecord file length total with
  | .failed => none
  | .found found bitmap => some (adoptFound total found bitmap)
  | .absent => some (adoptPrefix total rangeBytes (heldOf length total))

theorem mem_pendingRanges {total rangeBytes held : Nat} {bitmap : List UInt8}
    {range : PendingRange} : range ∈ pendingRanges total rangeBytes bitmap held ↔
    range.index < rangeCount total rangeBytes ∧ bit bitmap range.index = false ∧
    range.start = max (range.index * rangeBytes) held ∧
    range.last = rangeEnd range.index rangeBytes total := by
  unfold pendingRanges
  simp only [List.mem_map, List.mem_filter, List.mem_range, Bool.not_eq_eq_eq_not, Bool.not_true]
  constructor
  · rintro ⟨_, ⟨hIndex, hBit⟩, rfl⟩
    exact ⟨hIndex, hBit, rfl, rfl⟩
  · rintro ⟨hIndex, hBit, hStart, hLast⟩
    refine ⟨range.index, ⟨hIndex, hBit⟩, ?_⟩
    rw [← hStart, ← hLast]

/-
  A resumed transfer leaves no byte out and fetches none again: whatever the record says, a byte of
  the object is in a range to fetch exactly if it is past the prefix held and its bit is off.
-/
theorem pending_ranges_are_the_rest
    (total : Nat)
    (rangeBytes : ℕ+)
    (bitmap : List UInt8)
    (held : Nat)
    (offset : Fin total) :
    (∃ range ∈ pendingRanges total rangeBytes bitmap held,
       range.start ≤ offset ∧ offset ≤ range.last) ↔
      held ≤ offset ∧ bit bitmap (offset / rangeBytes) = false := by
  have hEnd : ∀ index, rangeEnd index rangeBytes total + 1 = min total (index * rangeBytes +
      rangeBytes) := fun _ => rangeEnd_succ rangeBytes.pos offset.pos
  have hLt := offset.isLt
  have hDiv := Nat.div_add_mod' offset.val rangeBytes
  have hMod := Nat.mod_lt offset.val rangeBytes.pos
  constructor
  · rintro ⟨range, hRange, hStart, hLast⟩
    rcases mem_pendingRanges.mp hRange with ⟨_, hBit, hFrom, hTo⟩
    have hStop := hEnd range.index
    have hIndex : offset.val / rangeBytes = range.index := by
      apply Nat.div_eq_of_lt_le
      · omega
      · rw [Nat.succ_mul]
        omega
    rw [hIndex]
    exact ⟨by omega, hBit⟩
  · rintro ⟨hHeld, hBit⟩
    generalize hIndex : offset.val / rangeBytes = index at *
    have hStop := hEnd index
    have hCount : total ≤ rangeCount total rangeBytes * rangeBytes :=
      Slices.le_count_mul rangeBytes.pos
    have hInside : index < rangeCount total rangeBytes := by
      rw [← hIndex, Nat.div_lt_iff_lt_mul rangeBytes.pos]
      omega
    refine ⟨⟨index, max (index * rangeBytes) held, rangeEnd index rangeBytes total⟩,
      mem_pendingRanges.mpr ⟨hInside, hBit, rfl, rfl⟩, ?_, ?_⟩
    · exact max_le (by omega) hHeld
    · change offset.val ≤ rangeEnd index rangeBytes total
      omega

/- The bytes that are still to be fetched. -/
def remaining (pending : List PendingRange) : Nat := (pending.map PendingRange.length).sum

variable {total rangeBytes : Nat}

/- No more is to be fetched than the object has. -/
theorem remaining_le_total
    (hBytes : 0 < rangeBytes)
    (bitmap : List UInt8)
    (held : Nat) :
    remaining (pendingRanges total rangeBytes bitmap held) ≤ total := by
  have hWhole : ((List.range (rangeCount total rangeBytes)).map fun index =>
        min rangeBytes (total - index * rangeBytes)).sum = total := by
    have hSlices :
        ((List.range (Slices.count rangeBytes (List.replicate total ()).length)).map fun k =>
            (Slices.slice rangeBytes (List.replicate total ()) k).length).sum =
          (List.replicate total ()).length :=
      Slices.sum_length_slice hBytes
    simpa only [rangeCount, Slices.length_slice, List.length_replicate] using hSlices
  rcases Nat.eq_zero_or_pos total with rfl | hTotal
  · have hNone : rangeCount 0 rangeBytes = 0 := by
      unfold rangeCount Slices.count
      rw [Nat.zero_add]
      exact Nat.div_eq_of_lt (Nat.sub_lt hBytes Nat.one_pos)
    simp [remaining, pendingRanges, hNone]
  · have hEach : ∀ index,
          rangeEnd index rangeBytes total + 1 -
              max (index * rangeBytes) held ≤ min rangeBytes (total - index * rangeBytes) := by
      intro index
      have hEnd :
          rangeEnd index rangeBytes total + 1 = min total (index * rangeBytes + rangeBytes) :=
        rangeEnd_succ hBytes hTotal
      omega
    calc remaining
          (pendingRanges total rangeBytes bitmap held)
        = (((List.range (rangeCount total rangeBytes)).filter (fun index => !bit bitmap index)).map
            fun index =>
              rangeEnd index rangeBytes total + 1 - max (index * rangeBytes) held).sum := by
          rw [remaining, pendingRanges, List.map_map]
          rfl
      _ ≤ ((List.range (rangeCount total rangeBytes)).map
            fun index =>
              rangeEnd index rangeBytes total + 1 - max (index * rangeBytes) held).sum := by
          apply List.Sublist.sum_le_sum
          · exact List.filter_sublist.map _
          · intro _ _
            exact Nat.zero_le _
      _ ≤ ((List.range (rangeCount total rangeBytes)).map
            fun index => min rangeBytes (total - index * rangeBytes)).sum := by
          apply List.sum_le_sum
          intro index _
          exact hEach index
      _ = total := hWhole

variable {length total rangeBytes : Nat}

/- A record that is found has ranges. -/
theorem rangeBytes_pos_of_found {file bitmap : List UInt8}
    (hFound : readRecord file length total = .found rangeBytes bitmap) : 0 < rangeBytes := by
  revert hFound
  fun_cases readRecord with
  | case4 => exact fun hFound => by simp_all [Nat.pos_iff_ne_zero]
  | _ => exact fun hFound => by cases hFound

/- What holds of every checkpoint that is adopted. -/
structure Adopted.Sound (adopted : Adopted) (total : Nat) : Prop where
  fits : remaining adopted.pending ≤ total
  ordered : ∀ range ∈ adopted.pending, range.start ≤ range.last ∧ range.last < total

theorem adoptFound_sound (hBytes : 0 < rangeBytes) (bitmap : List UInt8) :
    (adoptFound total rangeBytes bitmap).Sound total where
  fits := remaining_le_total hBytes bitmap 0
  ordered := by
    intro _ hRange
    rcases mem_pendingRanges.mp hRange with ⟨hIndex, _, hStart, hLast⟩
    have hLt := mul_lt_of_lt_rangeCount hIndex
    rw [hStart, hLast]
    unfold rangeEnd
    omega

theorem adoptPrefix_sound (hBytes : 0 < rangeBytes) (held : Nat) :
    (adoptPrefix total rangeBytes held).Sound total where
  fits := remaining_le_total hBytes _ held
  ordered := by
    intro range hRange
    rcases mem_pendingRanges.mp hRange with ⟨hIndex, hBit, hStart, hLast⟩
    have hLt := mul_lt_of_lt_rangeCount hIndex
    have hOpen : ¬ rangeEnd range.index rangeBytes total < held := by
      intro hHeld
      have hSet := (bit_prefixBitmap total rangeBytes held range.index).mpr ⟨hIndex, hHeld⟩
      rw [hBit] at hSet
      cases hSet
    rw [hStart, hLast]
    unfold rangeEnd at *
    omega

theorem adopt_sound {file : List UInt8} {adopted : Adopted}
    (hBytes : 0 < rangeBytes) (hAdopted : adopt file length total rangeBytes = some adopted) :
    adopted.Sound total := by
  unfold adopt at hAdopted
  split at hAdopted
  · cases hAdopted
  · next found bitmap hFound =>
      cases hAdopted
      exact adoptFound_sound (rangeBytes_pos_of_found hFound) bitmap
  · cases hAdopted
    exact adoptPrefix_sound hBytes _

end VonkForge.Distribution
