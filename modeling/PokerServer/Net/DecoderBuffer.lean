import PokerServer.Net.LengthFieldCodec

/-!
# The decoder's buffer

What `LengthFieldCodec::feed` (`src/poker/net/length_field_codec.cpp`) keeps of the bytes it was
given. `compact` erases bytes that were read only when they are half of the buffer or 4096, so the
bound on the memory of a connection is an invariant of the runs, `Bounded`.

`feedChecked` is `feed` with its accesses checked: sizes are subtracted as `std::size_t` does,
modulo 2^64, and a header or a frame that is not inside the buffer ends the call with `none`. It
agrees with `feed` in every reached state (`Bounded.feedChecked_eq`).

`decoder_buffer_bounded` collects what holds of each feed of a run.
-/

namespace PokerServer.LengthFieldCodec

/-! ## Accesses to the buffer -/

/-- `buffer_.size() - read_offset_`, as a `std::size_t`. -/
def sizeLeft (buffer : List UInt8) (readOffset : Nat) : Nat :=
  (buffer.length + 2 ^ 64 - readOffset) % 2 ^ 64

theorem shorter_of_within {size readOffset length : Nat}
    (h : ¬ size < readOffset + (headerSize + length)) :
    size - (readOffset + (headerSize + length)) < size - readOffset := by
  simp only [headerSize] at *
  omega

/-- The loop of `feed`, reading inside the buffer only. -/
def feedLoopChecked (maxFrameSize : Nat) (buffer : List UInt8) (readOffset : Nat)
    (frames : List Frame) : Option (CodecError × List Frame × Nat) :=
  if headerSize ≤ sizeLeft buffer readOffset then
    -- `peekLength` reads the four bytes of the header
    if buffer.length < readOffset + headerSize then none
    else
      let length := (peekLength buffer readOffset).toNat
      if length = 0 then some (.emptyFrame, frames, readOffset)
      else if maxFrameSize < length then some (.frameTooLarge, frames, readOffset)
      else if sizeLeft buffer readOffset < headerSize + length then
        some (.none, frames, readOffset)
      -- the frame is copied from between `begin` and `end`
      else if _h : buffer.length < readOffset + (headerSize + length) then none
      else
        feedLoopChecked maxFrameSize buffer (readOffset + (headerSize + length))
          (frames ++ [(buffer.drop (readOffset + headerSize)).take length])
  else some (.none, frames, readOffset)
termination_by buffer.length - readOffset
decreasing_by exact shorter_of_within _h

/-- `LengthFieldCodec::feed`, reading inside the buffer only. -/
def feedChecked (codec : LengthFieldCodec) (data : List UInt8) :
    Option (DecodeResult × LengthFieldCodec) :=
  if codec.failed then some (codec.fail .decoderFailed)
  else if data.length = 0 then some ({}, codec)
  else if codec.maxFrameSize + headerSize < data.length ∨
      codec.maxFrameSize + headerSize - data.length <
        sizeLeft codec.buffer codec.readOffset then
    some (codec.fail .frameTooLarge)
  else
    let buffer := codec.buffer ++ data
    (feedLoopChecked codec.maxFrameSize buffer codec.readOffset []).map fun
      | (.none, frames, readOffset) =>
        ({ frames }, compact { codec with buffer := buffer, readOffset := readOffset })
      | (error, _, readOffset) =>
        fail { codec with buffer := buffer, readOffset := readOffset } error

/-- The most bytes in `buffer_` while a feed runs: the data is appended once it is accepted, and
only `compact` takes bytes away. -/
def bytesHeld (codec : LengthFieldCodec) (data : List UInt8) : Nat :=
  if codec.failed ∨ data.length = 0 ∨ codec.maxFrameSize + headerSize < data.length ∨
      codec.maxFrameSize + headerSize - data.length < codec.bufferedBytes then codec.buffer.length
  else (codec.buffer ++ data).length

variable {m : Nat} {codec start : LengthFieldCodec} {buffer bytes data : List UInt8}
  {readOffset : Nat}

theorem sizeLeft_eq (h : readOffset ≤ buffer.length) (hfits : buffer.length < 2 ^ 64) :
    sizeLeft buffer readOffset = buffer.length - readOffset := by
  unfold sizeLeft
  omega

/-- From inside the buffer, the loop reads inside the buffer. -/
theorem feedLoopChecked_eq (hfits : buffer.length < 2 ^ 64) (h : readOffset ≤ buffer.length)
    (frames : List Frame) :
    feedLoopChecked m buffer readOffset frames = some (feedLoop m buffer readOffset frames) := by
  induction hn : buffer.length - readOffset using Nat.strongRecOn
    generalizing readOffset frames with
  | ind n ih =>
    rw [feedLoopChecked, feedLoop, sizeLeft_eq h hfits]
    split
    · rename_i hhead
      have hheader : ¬ buffer.length < readOffset + headerSize := by omega
      rw [if_neg hheader]
      dsimp only
      split
      · rfl
      split
      · rfl
      split
      · rfl
      · rename_i hframe
        have hinside : ¬ buffer.length <
            readOffset + (headerSize + (peekLength buffer readOffset).toNat) := by omega
        rw [dif_neg hinside]
        exact ih _ (hn ▸ shorter_of_within hinside) (by omega) _ rfl
    · rfl

/-! ## Compaction -/

/-- What was read and is still there is less than half of the buffer, and less than 4096 bytes. -/
def Compacted (codec : LengthFieldCodec) : Prop :=
  codec.readOffset = 0 ∨ codec.readOffset < 4096 ∧ 2 * codec.readOffset < codec.buffer.length

theorem Compacted.readOffset_le (h : codec.Compacted) : codec.readOffset ≤ 4095 := by
  rcases h with h | ⟨h, _⟩ <;> omega

theorem compact_compacted (codec : LengthFieldCodec) : codec.compact.Compacted := by
  unfold compact Compacted
  split
  · exact Or.inl (by assumption)
  split
  · exact Or.inl rfl
  split
  · exact Or.inl rfl
  · exact Or.inr (by omega)

theorem length_compact_le (codec : LengthFieldCodec) :
    codec.compact.buffer.length ≤ codec.buffer.length := by
  unfold compact
  split
  · exact Nat.le_refl _
  split
  · exact Nat.zero_le _
  split
  · exact (List.drop_sublist _ _).length_le
  · exact Nat.le_refl _

/-! ## What holds between the calls -/

/-- The unread bytes are a proper prefix of one frame. -/
def PartialFrame (m : Nat) (bytes : List UInt8) : Prop :=
  bytes.length < headerSize ∨
    1 ≤ (peekLength bytes 0).toNat ∧ (peekLength bytes 0).toNat ≤ m ∧
      bytes.length < headerSize + (peekLength bytes 0).toNat

theorem partialFrame_of_more (h : nextFrame m bytes = .more) : PartialFrame m bytes := by
  unfold nextFrame at h
  split at h
  · dsimp only at h
    split at h
    · exact absurd h (by simp)
    split at h
    · exact absurd h (by simp)
    split at h
    · exact Or.inr ⟨by omega, by omega, by assumption⟩
    · exact absurd h (by simp)
  · exact Or.inl (by omega)

/-- The invariant of the runs. A decoder that failed keeps its buffer until `reset`. -/
structure Bounded (m : Nat) (codec : LengthFieldCodec) : Prop where
  limit : codec.maxFrameSize = m
  within : codec.readOffset ≤ codec.buffer.length
  size : codec.buffer.length ≤ m + headerSize + 4095
  compacted : codec.failed = false → codec.Compacted
  more : codec.failed = false → nextFrame m codec.unread = .more

theorem create_bounded (h : create m = .ok start) : Bounded m start := by
  have hw := create_waiting h
  unfold create at h
  split at h
  · exact absurd h (by simp)
  · cases h
    exact ⟨rfl, Nat.le_refl _, Nat.zero_le _, fun _ => Or.inl rfl, fun _ => hw.more⟩

theorem Bounded.waiting (h : Bounded m codec) (hworks : codec.failed = false) :
    Waiting m codec.unread codec :=
  ⟨h.limit, hworks, rfl, h.within, h.more hworks⟩

theorem Bounded.reset (h : Bounded m codec) : Bounded m codec.reset :=
  ⟨h.limit, Nat.le_refl _, Nat.zero_le _, fun _ => Or.inl rfl, fun _ => rfl⟩

/-- Data that is accepted fits beside the bytes that were read and are still there. -/
theorem Bounded.accepted (h : Bounded m codec) (hworks : codec.failed = false)
    (hfit : codec.bufferedBytes + data.length ≤ m + headerSize) :
    (codec.buffer ++ data).length ≤ m + headerSize + 4095 := by
  have hread := (h.compacted hworks).readOffset_le
  have hwithin := h.within
  rw [bufferedBytes] at hfit
  rw [List.length_append]
  omega

theorem Bounded.bytesHeld_le (h : Bounded m codec) (data : List UInt8) :
    codec.bytesHeld data ≤ m + headerSize + 4095 := by
  unfold bytesHeld
  split
  · exact h.size
  · rename_i haccepted
    rw [h.limit] at haccepted
    exact h.accepted (by simpa using fun hf => haccepted (Or.inl hf)) (by omega)

/-- The limit is a `std::uint32_t`, so that no size wraps around. -/
theorem Bounded.size_fits (h : Bounded m codec) : m + headerSize + 4095 < 2 ^ 64 := by
  have hlimit := codec.bounded
  rw [h.limit] at hlimit
  simp only [headerSize]
  omega

/-- **Reads stay inside the buffer.** -/
theorem Bounded.feedChecked_eq (h : Bounded m codec) (data : List UInt8) :
    codec.feedChecked data = some (codec.feed data) := by
  have hfits := h.size_fits
  have hleft : sizeLeft codec.buffer codec.readOffset = codec.bufferedBytes :=
    sizeLeft_eq h.within (Nat.lt_of_le_of_lt h.size hfits)
  obtain rfl := h.limit
  unfold feedChecked feed
  rw [hleft]
  split
  · rfl
  split
  · rfl
  split
  · rfl
  · rename_i hworks _ hsize
    have hheld : (codec.buffer ++ data).length ≤ codec.maxFrameSize + headerSize + 4095 :=
      h.accepted (by simpa using hworks) (by omega)
    have hwithin : codec.readOffset ≤ (codec.buffer ++ data).length := by
      rw [List.length_append]
      exact Nat.le_add_right_of_le h.within
    dsimp only
    rw [feedLoopChecked_eq (Nat.lt_of_le_of_lt hheld hfits) hwithin]
    obtain ⟨error, frames, readOffset⟩ :=
      feedLoop codec.maxFrameSize (codec.buffer ++ data) codec.readOffset []
    cases error <;> rfl

/-- A decoder that has failed is left as it is. -/
theorem Bounded.feed_failed (h : Bounded m codec) (hfailed : codec.failed = true) :
    Bounded m (codec.feed data).2 := by
  rw [LengthFieldCodec.feed, if_pos hfailed]
  exact h

theorem Bounded.failing (h : Bounded m codec) : Bounded m { codec with failed := true } :=
  ⟨h.limit, h.within, h.size, fun hworks => absurd hworks (by simp),
    fun hworks => absurd hworks (by simp)⟩

/-- Data that is not accepted is not kept. -/
theorem Bounded.feed_refused (h : Bounded m codec) (hworks : codec.failed = false)
    (hfit : ¬ codec.bufferedBytes + data.length ≤ m + headerSize) :
    Bounded m (codec.feed data).2 := by
  have hlimit := h.limit
  have hmore := length_lt_of_more (h.more hworks)
  rw [length_unread] at hmore
  rw [LengthFieldCodec.feed, if_neg (by simp [hworks]), if_neg (by omega), if_pos (by omega)]
  exact h.failing

/-- The loop leaves an offset inside the buffer, and either more bytes are needed or the decoder
has failed. -/
theorem Bounded.feed_accepted (h : Bounded m codec) (hworks : codec.failed = false)
    (hdata : data ≠ []) (hfit : codec.bufferedBytes + data.length ≤ m + headerSize) :
    Bounded m (codec.feed data).2 := by
  have hsize := h.accepted hworks hfit
  obtain ⟨offset, hle, hdrop, hfeed⟩ := (h.waiting hworks).feed_eq hfit hdata
  have hrest := (frameScanner m).next_rest (codec.unread ++ data)
  rw [frameScanner_next, ← hdrop] at hrest
  rw [hfeed]
  cases herror : ((frameScanner m).scan (codec.unread ++ data)).error with
  | none =>
    rw [herror] at hrest
    refine ⟨(maxFrameSize_compact _).trans h.limit, compact_within hle,
      Nat.le_trans (length_compact_le _) hsize, fun _ => compact_compacted _, fun _ => ?_⟩
    dsimp only [Option.getD]
    rw [unread_compact]
    exact hrest
  | some e =>
    have hfailed : Bounded m
        { codec with buffer := codec.buffer ++ data, readOffset := offset, failed := true } :=
      ⟨h.limit, hle, hsize, fun hworks => absurd hworks (by simp),
        fun hworks => absurd hworks (by simp)⟩
    rcases scan_error herror with rfl | rfl <;> exact hfailed

theorem Bounded.feed (h : Bounded m codec) (data : List UInt8) :
    Bounded m (codec.feed data).2 := by
  cases hworks : codec.failed with
  | true => exact h.feed_failed hworks
  | false =>
    by_cases hdata : data = []
    · subst hdata
      rw [LengthFieldCodec.feed, if_neg (by simp [hworks])]
      exact h
    by_cases hfit : codec.bufferedBytes + data.length ≤ m + headerSize
    · exact h.feed_accepted hworks hdata hfit
    · exact h.feed_refused hworks hfit

/-- A decoder whose feed reports no error has not failed. -/
theorem works_of_feed (h : (codec.feed data).1.error = .none) :
    (codec.feed data).2.failed = false := by
  unfold LengthFieldCodec.feed at *
  split at h
  · exact absurd h (by simp [fail])
  rename_i hworks
  rw [if_neg hworks]
  split at h
  · rename_i hdata
    rw [if_pos hdata]
    simpa using hworks
  split at h
  · exact absurd h (by simp [fail])
  rename_i hdata hsize
  rw [if_neg hdata, if_neg hsize]
  dsimp only at h ⊢
  generalize feedLoop codec.maxFrameSize (codec.buffer ++ data) codec.readOffset [] = left at *
  obtain ⟨error, frames, readOffset⟩ := left
  cases error with
  | none => simpa using hworks
  | _ => exact absurd h (by simp [fail])

/-! ## Runs -/

inductive CodecCall where
  | feed (data : List UInt8)
  | reset

/-- The decoder after a call. -/
def serve (codec : LengthFieldCodec) : CodecCall → LengthFieldCodec
  | .feed data => (codec.feed data).2
  | .reset => codec.reset

theorem Bounded.run (h : Bounded m codec) (calls : List CodecCall) :
    Bounded m (calls.foldl serve codec) := by
  induction calls generalizing codec with
  | nil => exact h
  | cons call calls ih =>
    cases call with
    | feed data => exact ih (h.feed data)
    | reset => exact ih h.reset

/-- **The decoder's buffer is bounded.** In every run of `feed` and `reset`, each feed reads inside
the buffer and holds at most 4095 bytes beyond the largest frame with its header. A feed that
reports no error leaves a proper prefix of one frame, behind a read offset that is 0 or was too
small to compact. -/
theorem decoder_buffer_bounded (hnew : create m = .ok start) (calls : List CodecCall)
    (data : List UInt8) :
    (calls.foldl serve start).feedChecked data = some ((calls.foldl serve start).feed data) ∧
      (calls.foldl serve start).bytesHeld data ≤ m + headerSize + 4095 ∧
      (((calls.foldl serve start).feed data).1.error = .none →
        let codec := ((calls.foldl serve start).feed data).2
        PartialFrame m codec.unread ∧ codec.readOffset ≤ codec.buffer.length ∧
          (codec.readOffset = 0 ∨
            codec.readOffset < 4096 ∧ 2 * codec.readOffset < codec.buffer.length)) := by
  have hbefore := (create_bounded hnew).run calls
  refine ⟨hbefore.feedChecked_eq data, hbefore.bytesHeld_le data, fun hnone => ?_⟩
  have hafter := hbefore.feed data
  have hworks := works_of_feed hnone
  exact ⟨partialFrame_of_more (hafter.more hworks), hafter.within, hafter.compacted hworks⟩

/-- A frame that arrives in two pieces, with half of the next header behind it. -/
theorem decoder_buffer_bounded_halfHeader :
    ∃ start, create 8 = .ok start ∧
      (([.feed [0, 0, 0], .feed [2, 7, 7, 0, 0]] : List CodecCall).foldl serve start).bytesHeld
        [0, 1, 9] ≤ 8 + headerSize + 4095 :=
  ⟨_, rfl, (decoder_buffer_bounded rfl _ _).2.1⟩

end PokerServer.LengthFieldCodec
