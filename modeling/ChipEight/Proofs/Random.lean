import ChipEight.Random.Stream
/-!
# The words of a stream

A stream makes a block when it needs one and keeps it while its words last. That comes to a sequence of
words that could be looked up one by one: the word `k` is in the block `k / 16`, at the place `k % 16`
(`next_after`). `At` is what a stream knows of its place in the sequence, and `At.next` follows it over
the ends of blocks and over the end of the counter's range.
-/
namespace ChipEight.Random.Stream

/-- The word at a place of the sequence under a key. The counter of blocks has 64 bits. -/
def word (key : StreamKey) (k : Nat) : UInt32 :=
  (ChaCha.block key (UInt64.ofNat (k / 16)))[k % 16]

/-- The stream has given out `k` words of the sequence under `key`. It has made as many blocks as these
take up, and keeps the one of the last word. -/
structure At (key : StreamKey) (k : Nat) (s : Stream) : Prop where
  keyed : s.key = key
  counter : s.counter = UInt64.ofNat ((k + 15) / 16)
  used : 16 * ((k + 15) / 16) + s.used.val = k + 16
  buffer : 0 < k → s.buffer = ChaCha.block key (UInt64.ofNat ((k - 1) / 16))

theorem at_ofKey (key : StreamKey) : At key 0 (ofKey key) := ⟨rfl, rfl, rfl, nofun⟩

/-- The word given out is the one at the stream's place, and the stream moves on by one. -/
theorem At.next {key : StreamKey} {k : Nat} {s : Stream} (here : At key k s) :
    s.next.1 = word key k ∧ At key (k + 1) s.next.2 := by
  obtain ⟨rfl, counter, used, buffer⟩ := here
  have bound := s.used.isLt
  unfold Stream.next
  split
  next left =>
    -- The block of the last word has this one too.
    have block := buffer (by omega)
    have place : s.used.val = k % 16 := by omega
    have same : (k - 1) / 16 = k / 16 := by omega
    rw [same] at block
    refine ⟨?_, rfl, ?_, ?_, fun _ => block⟩
    · simp only [block, place, word]
    · rw [counter]
      congr 1
      omega
    · simp only
      omega
  next full =>
    have blocks : (k + 15) / 16 = k / 16 := by omega
    have place : k % 16 = 0 := by omega
    have made : s.refill.buffer = ChaCha.block s.key (UInt64.ofNat (k / 16)) := by
      rw [refill, counter, blocks]
    refine ⟨?_, rfl, ?_, ?_, fun _ => made⟩
    · simp only [made, place, word]
    · have counted : s.refill.counter = UInt64.ofNat (k / 16) + 1 := by
        rw [refill, counter, blocks]
      have onward : (k + 1 + 15) / 16 = k / 16 + 1 := by omega
      rw [counted, onward, UInt64.ofNat_add]
      rfl
    · have one : s.refill.used.val = 1 := rfl
      rw [one]
      omega

/-- The stream after `count` words. -/
def after (s : Stream) : Nat → Stream
  | 0 => s
  | count + 1 => (s.after count).next.2

theorem at_after (key : StreamKey) (k : Nat) : At key k ((ofKey key).after k) := by
  induction k with
  | zero => exact at_ofKey key
  | succ k ih => exact ih.next.2

/-- The words of a stream, taken one after the other, are those of the sequence. -/
theorem next_after (key : StreamKey) (k : Nat) : ((ofKey key).after k).next.1 = word key k :=
  (at_after key k).next.1

end ChipEight.Random.Stream
