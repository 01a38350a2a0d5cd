import ArchGraph.Digest
/-!
# Digests with the latest word first

The schedule of a block grows at its end and is read from its end. Kept as a list with its latest
word first, it is read near its front, and the digests of fixed messages can be computed inside
proofs. Main statement: `sha256_eq`, the two ways lead to the same digest.
-/

namespace ArchGraph.Digest

/-- The schedule with its next word, the latest word first. -/
def grow (latest : List UInt32) : List UInt32 :=
  let back (distance : Nat) : UInt32 := latest.getD (distance - 1) 0
  let w15 := back 15
  let w2 := back 2
  let s0 := rotate w15 7 ^^^ rotate w15 18 ^^^ (w15 >>> 3)
  let s1 := rotate w2 17 ^^^ rotate w2 19 ^^^ (w2 >>> 10)
  (back 16 + s0 + back 7 + s1) :: latest

/-- A word before the end of a schedule, counted from the latest one. -/
theorem getD_sub_size (schedule : Array UInt32) {distance : Nat} (h : 0 < distance)
    (hle : distance ≤ schedule.size) :
    schedule.getD (schedule.size - distance) 0 =
      schedule.toList.reverse.getD (distance - 1) 0 := by
  have hlt : distance - 1 < schedule.toList.length := by
    rw [Array.length_toList]; omega
  rw [List.getD_eq_getElem?_getD, List.getElem?_reverse hlt, Array.length_toList]
  rw [Array.getD_eq_getD_getElem?, Array.getElem?_toList]
  congr 2
  omega

theorem reverse_extend {schedule : Array UInt32} (h : 16 ≤ schedule.size) :
    (extend schedule).toList.reverse = grow schedule.toList.reverse := by
  have hback (distance : Nat) (hpos : 0 < distance) (hle : distance ≤ 16) :
      schedule.getD (schedule.size - distance) 0 =
        schedule.toList.reverse.getD (distance - 1) 0 :=
    getD_sub_size schedule hpos (Nat.le_trans hle h)
  simp only [extend, grow, Array.toList_push, List.reverse_append, List.reverse_singleton,
    List.singleton_append, hback 15 (by omega) (by omega), hback 2 (by omega) (by omega),
    hback 16 (by omega) (by omega), hback 7 (by omega) (by omega)]

theorem reverse_repeat_extend {schedule : Array UInt32} (h : 16 ≤ schedule.size) (count : Nat) :
    (Nat.repeat extend count schedule).toList.reverse =
      Nat.repeat grow count schedule.toList.reverse ∧
      16 ≤ (Nat.repeat extend count schedule).size := by
  induction count with
  | zero => exact ⟨rfl, h⟩
  | succ count ih =>
    obtain ⟨hwords, hsize⟩ := ih
    refine ⟨?_, ?_⟩
    · rw [Nat.repeat, reverse_extend hsize, hwords, Nat.repeat]
    · rw [Nat.repeat, extend, Array.size_push]
      omega

/-- Mixes one block into the chaining state by a schedule with its latest word first. -/
def compressLatest (s : State) (block : List UInt32) : State :=
  let schedule := (Nat.repeat grow 48 block.reverse).reverse
  let t := (roundConstants.zip schedule).foldl (fun t pair => round t pair.1 pair.2) s
  ⟨s.a + t.a, s.b + t.b, s.c + t.c, s.d + t.d, s.e + t.e, s.f + t.f, s.g + t.g, s.h + t.h⟩

theorem compress_eq (s : State) {block : List UInt32} (h : 16 ≤ block.length) :
    compress s block = compressLatest s block := by
  have hwords := (reverse_repeat_extend (show 16 ≤ block.toArray.size by simpa using h) 48).1
  simp only [compress, compressLatest, ← hwords, List.reverse_reverse]

/-- Mixes `count` blocks of 16 words into the chaining state. -/
def absorbLatest : Nat → List UInt32 → State → State
  | 0, _, s => s
  | count + 1, message, s =>
    absorbLatest count (message.drop 16) (compressLatest s (message.take 16))

theorem absorb_eq : ∀ (count : Nat) {message : List UInt32} (s : State),
    16 * count ≤ message.length → absorb count message s = absorbLatest count message s
  | 0, _, _, _ => rfl
  | count + 1, message, s, h => by
    rw [absorb, absorbLatest, compress_eq s (by rw [List.length_take]; omega)]
    exact absorb_eq count _ (by rw [List.length_drop]; omega)

/-- The digest of a message by schedules with their latest words first. -/
def sha256Latest (message : List UInt8) : List UInt8 :=
  let ws := words (pad message)
  let s := absorbLatest (ws.length / 16) ws State.start
  [s.a, s.b, s.c, s.d, s.e, s.f, s.g, s.h].flatMap wordBytes

theorem sha256_eq (message : List UInt8) : sha256 message = sha256Latest message := by
  simp only [sha256, sha256Latest, absorb_eq _ _ (Nat.mul_div_le _ 16)]

end ArchGraph.Digest
