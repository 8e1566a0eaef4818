import Mathlib.Data.Nat.Bitwise
import PokerServer.Lib.Scanner

/-!
# The length-field codec

Model of `src/poker/net/length_field_codec.cpp`. A frame is its payload after a four-byte
big-endian length. The decoder keeps the bytes it has received in `buffer`, reads from
`readOffset`, and drops the bytes it has read only now and then (`compact`); `failed` is set by the
first error and holds until `reset`.

* A constructor or function that throws returns `Except CodecFault`. What the constructor checks is
  a field of the structure.
* `feedLoop` is the loop of `feed`: the error it stops at, the frames it has appended to `result`
  and the offset it leaves.

The decoder refines the scanner `frameScanner`, which looks at the unread bytes only
(`feed_of_ok`, `feed_of_bad`).
-/

namespace PokerServer

inductive CodecError where
  | none
  | emptyFrame
  | frameTooLarge
  | decoderFailed
  deriving DecidableEq, Repr

/-- What the codec throws, with its text. -/
inductive CodecFault where
  | invalidArgument (what : String)
  | lengthError (what : String)
  deriving DecidableEq, Repr

abbrev Frame := List UInt8

structure DecodeResult where
  error : CodecError := .none
  frames : List Frame := []
  deriving DecidableEq, Repr

structure LengthFieldCodec where
  maxFrameSize : Nat
  positive : 0 < maxFrameSize
  bounded : maxFrameSize < 2 ^ 32
  buffer : List UInt8 := []
  readOffset : Nat := 0
  failed : Bool := false

namespace LengthFieldCodec

def headerSize : Nat := 4

/-- The constructor. -/
def create (maxFrameSize : Nat) : Except CodecFault LengthFieldCodec :=
  if h : maxFrameSize = 0 ∨ 2 ^ 32 - 1 < maxFrameSize then
    .error (.invalidArgument "maximum frame size must fit a positive uint32")
  else .ok { maxFrameSize, positive := by omega, bounded := by omega }

/-- The four header bytes `encode` pushes. -/
def header (size : UInt32) : List UInt8 :=
  [((size >>> 24) &&& 0xff).toUInt8, ((size >>> 16) &&& 0xff).toUInt8,
    ((size >>> 8) &&& 0xff).toUInt8, (size &&& 0xff).toUInt8]

def encode (payload : Frame) (maxFrameSize : Nat) : Except CodecFault (List UInt8) :=
  if payload.isEmpty then .error (.invalidArgument "empty protocol frames are not allowed")
  else if maxFrameSize < payload.length ∨ 2 ^ 32 - 1 < payload.length then
    .error (.lengthError "protocol frame exceeds the configured maximum")
  else .ok (header (UInt32.ofNat payload.length) ++ payload)

/-- The unread bytes: what `buffer_` holds from `read_offset_` on. -/
def unread (codec : LengthFieldCodec) : List UInt8 := codec.buffer.drop codec.readOffset

def bufferedBytes (codec : LengthFieldCodec) : Nat := codec.buffer.length - codec.readOffset

def reset (codec : LengthFieldCodec) : LengthFieldCodec :=
  { codec with buffer := [], readOffset := 0, failed := false }

/-- Reads the four bytes from `readOffset` on; the loop looks only where they are there. -/
def peekLength (buffer : List UInt8) (readOffset : Nat) : UInt32 :=
  match buffer.drop readOffset with
  | b₀ :: b₁ :: b₂ :: b₃ :: _ =>
    (b₀.toUInt32 <<< 24) ||| (b₁.toUInt32 <<< 16) ||| (b₂.toUInt32 <<< 8) ||| b₃.toUInt32
  | _ => 0

def compact (codec : LengthFieldCodec) : LengthFieldCodec :=
  if codec.readOffset = 0 then codec
  else if codec.readOffset = codec.buffer.length then
    { codec with buffer := [], readOffset := 0 }
  else if 4096 ≤ codec.readOffset ∨ codec.buffer.length ≤ codec.readOffset * 2 then
    { codec with buffer := codec.buffer.drop codec.readOffset, readOffset := 0 }
  else codec

def fail (codec : LengthFieldCodec) (error : CodecError) : DecodeResult × LengthFieldCodec :=
  ({ error, frames := [] },
    if error ≠ .decoderFailed then { codec with failed := true } else codec)

def feedLoop (maxFrameSize : Nat) (buffer : List UInt8) (readOffset : Nat) (frames : List Frame) :
    CodecError × List Frame × Nat :=
  if headerSize ≤ buffer.length - readOffset then
    let length := (peekLength buffer readOffset).toNat
    if length = 0 then (.emptyFrame, frames, readOffset)
    else if maxFrameSize < length then (.frameTooLarge, frames, readOffset)
    else if buffer.length - readOffset < headerSize + length then (.none, frames, readOffset)
    else
      feedLoop maxFrameSize buffer (readOffset + (headerSize + length))
        (frames ++ [(buffer.drop (readOffset + headerSize)).take length])
  else (.none, frames, readOffset)
termination_by buffer.length - readOffset
decreasing_by
  simp only [headerSize] at *
  omega

/-- `LengthFieldCodec::feed`. -/
def feed (codec : LengthFieldCodec) (data : List UInt8) : DecodeResult × LengthFieldCodec :=
  if codec.failed then codec.fail .decoderFailed
  else if data.length = 0 then ({}, codec)
  else if codec.maxFrameSize + headerSize < data.length ∨
      codec.maxFrameSize + headerSize - data.length < codec.bufferedBytes then
    codec.fail .frameTooLarge
  else
    let buffer := codec.buffer ++ data
    match feedLoop codec.maxFrameSize buffer codec.readOffset [] with
    | (.none, frames, readOffset) =>
      ({ frames }, compact { codec with buffer := buffer, readOffset := readOffset })
    | (error, _, readOffset) =>
      fail { codec with buffer := buffer, readOffset := readOffset } error

/-- Feeds the chunks of a stream until it ends or a feed reports an error: the frames of all feeds
in order, the error of the last one, and the decoder then. -/
def feedAll (codec : LengthFieldCodec) : List (List UInt8) → DecodeResult × LengthFieldCodec
  | [] => ({}, codec)
  | chunk :: chunks =>
    let (result, codec) := codec.feed chunk
    if result.error = .none then
      let (later, codec) := feedAll codec chunks
      ({ later with frames := result.frames ++ later.frames }, codec)
    else (result, codec)

/-! ## The header -/

/-- The bytes are put together without overlap. -/
theorem toNat_peekLength {b₀ b₁ b₂ b₃ : UInt8} {bytes buffer : List UInt8} {readOffset : Nat}
    (h : buffer.drop readOffset = b₀ :: b₁ :: b₂ :: b₃ :: bytes) :
    (peekLength buffer readOffset).toNat =
      2 ^ 24 * b₀.toNat + (2 ^ 16 * b₁.toNat + (2 ^ 8 * b₂.toNat + b₃.toNat)) := by
  have h₀ := b₀.toNat_lt
  have h₁ := b₁.toNat_lt
  have h₂ := b₂.toNat_lt
  have h₃ := b₃.toNat_lt
  have shift (b : UInt8) (k : Nat) (hk : k ≤ 24) : b.toNat <<< k % 2 ^ 32 = 2 ^ k * b.toNat := by
    have hlt : 2 ^ k * b.toNat < 2 ^ 24 * 2 ^ 8 :=
      Nat.mul_lt_mul_of_le_of_lt (Nat.pow_le_pow_right (by omega) hk) b.toNat_lt (by omega)
    rw [Nat.shiftLeft_eq, Nat.mul_comm, Nat.mod_eq_of_lt (by omega)]
  have h24 : UInt32.toNat 24 % 32 = 24 := rfl
  have h16 : UInt32.toNat 16 % 32 = 16 := rfl
  have h8 : UInt32.toNat 8 % 32 = 8 := rfl
  rw [peekLength, h]
  simp only [UInt32.toNat_or, UInt32.toNat_shiftLeft, UInt8.toNat_toUInt32, h24, h16, h8]
  rw [shift b₀ 24 (by omega), shift b₁ 16 (by omega), shift b₂ 8 (by omega), Nat.or_assoc,
    Nat.or_assoc, ← Nat.two_pow_add_eq_or_of_lt h₃,
    ← Nat.two_pow_add_eq_or_of_lt (i := 16) (by omega),
    ← Nat.two_pow_add_eq_or_of_lt (i := 24) (by omega)]

theorem peekLength_append {xs : List UInt8} (ys : List UInt8) (h : headerSize ≤ xs.length) :
    peekLength (xs ++ ys) 0 = peekLength xs 0 := by
  match xs, h with
  | _ :: _ :: _ :: _ :: _, _ => rfl

private theorem mask_byte (n : Nat) : (n &&& 255) % 2 ^ 8 = n % 2 ^ 8 := by
  rw [show 255 = 2 ^ 8 - 1 from rfl, Nat.and_two_pow_sub_one_eq_mod, Nat.mod_mod]

/-- The byte `encode` takes out of a size. -/
theorem toNat_byte (size : UInt32) {k : UInt32} (hk : k.toNat < 32) :
    ((size >>> k) &&& 0xff).toUInt8.toNat = size.toNat / 2 ^ k.toNat % 2 ^ 8 := by
  have h255 : UInt32.toNat 255 = 255 := rfl
  rw [UInt32.toNat_toUInt8, UInt32.toNat_and, UInt32.toNat_shiftRight, h255, mask_byte,
    Nat.mod_eq_of_lt hk, Nat.shiftRight_eq_div_pow]

theorem toNat_lowByte (size : UInt32) : (size &&& 0xff).toUInt8.toNat = size.toNat % 2 ^ 8 := by
  have h255 : UInt32.toNat 255 = 255 := rfl
  rw [UInt32.toNat_toUInt8, UInt32.toNat_and, h255, mask_byte]

/-- A header read back gives the size it was made from. -/
theorem peekLength_header (size : UInt32) (bytes : List UInt8) :
    peekLength (header size ++ bytes) 0 = size := by
  have hlt := size.toNat_lt
  have hbytes : (header size ++ bytes).drop 0 = header size ++ bytes := rfl
  apply UInt32.toNat_inj.mp
  rw [toNat_peekLength hbytes, toNat_byte size (by decide), toNat_byte size (by decide),
    toNat_byte size (by decide), toNat_lowByte]
  simp only [UInt32.reduceToNat]
  omega

@[simp] theorem length_header (size : UInt32) : (header size).length = headerSize := rfl

/-! ## The unread bytes as a scanner -/

/-- What the loop of `feed` finds at the front of the unread bytes. -/
def nextFrame (maxFrameSize : Nat) (bytes : List UInt8) : Found UInt8 Frame CodecError :=
  if headerSize ≤ bytes.length then
    let length := (peekLength bytes 0).toNat
    if length = 0 then .bad .emptyFrame
    else if maxFrameSize < length then .bad .frameTooLarge
    else if bytes.length < headerSize + length then .more
    else .frame ((bytes.drop headerSize).take length) (bytes.drop (headerSize + length))
  else .more

theorem nextFrame_eq_frame {m : Nat} {xs rest : List UInt8} {f : Frame} :
    nextFrame m xs = .frame f rest ↔
      (0 < (peekLength xs 0).toNat ∧ (peekLength xs 0).toNat ≤ m ∧
        headerSize + (peekLength xs 0).toNat ≤ xs.length) ∧
      f = (xs.drop headerSize).take (peekLength xs 0).toNat ∧
      rest = xs.drop (headerSize + (peekLength xs 0).toNat) := by
  unfold nextFrame
  constructor
  · intro h
    split at h
    · dsimp only at h
      split at h
      · exact absurd h (by simp)
      split at h
      · exact absurd h (by simp)
      split at h
      · exact absurd h (by simp)
      obtain ⟨rfl, rfl⟩ := Found.frame.inj h
      exact ⟨by omega, rfl, rfl⟩
    · exact absurd h (by simp)
  · rintro ⟨⟨hpos, hle, hlen⟩, rfl, rfl⟩
    rw [if_pos (by omega), if_neg (by omega), if_neg (by omega), if_neg (by omega)]

theorem nextFrame_eq_bad {m : Nat} {xs : List UInt8} {e : CodecError} :
    nextFrame m xs = .bad e ↔ headerSize ≤ xs.length ∧
      ((peekLength xs 0).toNat = 0 ∧ e = .emptyFrame ∨
        m < (peekLength xs 0).toNat ∧ 0 < (peekLength xs 0).toNat ∧ e = .frameTooLarge) := by
  unfold nextFrame
  constructor
  · intro h
    split at h
    · rename_i hhead
      dsimp only at h
      split at h
      · rename_i hzero
        exact ⟨hhead, Or.inl ⟨hzero, (Found.bad.inj h).symm⟩⟩
      split at h
      · rename_i hzero hbig
        exact ⟨hhead, Or.inr ⟨hbig, by omega, (Found.bad.inj h).symm⟩⟩
      split at h <;> exact absurd h (by simp)
    · exact absurd h (by simp)
  · rintro ⟨hhead, ⟨hzero, rfl⟩ | ⟨hbig, hpos, rfl⟩⟩
    · rw [if_pos hhead, if_pos hzero]
    · rw [if_pos hhead, if_neg (by omega), if_pos hbig]

/-- Where more bytes are needed, one more fits the decoder's buffer. -/
theorem length_lt_of_more {m : Nat} {xs : List UInt8} (h : nextFrame m xs = .more) :
    xs.length < headerSize + m := by
  unfold nextFrame at h
  split at h
  · dsimp only at h
    split at h
    · exact absurd h (by simp)
    split at h
    · exact absurd h (by simp)
    split at h
    · omega
    · exact absurd h (by simp)
  · omega

/-- Four bytes decide whether a header is malformed. -/
theorem ne_bad_of_more {m : Nat} {xs ys : List UInt8} {e : CodecError}
    (hmore : nextFrame m xs = .more) (hbad : nextFrame m (xs ++ ys) = .bad e) :
    xs.length < headerSize := by
  by_contra hlen
  have hhead : headerSize ≤ xs.length := by omega
  rw [nextFrame_eq_bad, peekLength_append ys hhead] at hbad
  rw [nextFrame_eq_bad.mpr ⟨hhead, hbad.2⟩] at hmore
  exact absurd hmore (by simp)

/-- A frame that was not complete ends in what follows. -/
theorem frame_end_of_more {m : Nat} {xs ys rest : List UInt8} {f : Frame}
    (hmore : nextFrame m xs = .more) (hframe : nextFrame m (xs ++ ys) = .frame f rest) :
    xs.length + rest.length < (xs ++ ys).length := by
  obtain ⟨⟨hpos, hle, hlen⟩, -, rfl⟩ := nextFrame_eq_frame.mp hframe
  rw [List.length_drop]
  by_contra hend
  have hhead : headerSize ≤ xs.length := by omega
  rw [peekLength_append ys hhead] at *
  rw [nextFrame_eq_frame.mpr ⟨⟨hpos, hle, by omega⟩, rfl, rfl⟩] at hmore
  exact absurd hmore (by simp)

/-- The bytes the codec has not read, scanned for frames. -/
def frameScanner (maxFrameSize : Nat) : Scanner UInt8 Frame CodecError where
  next := nextFrame maxFrameSize
  shorter := by
    intro xs f rest h
    obtain ⟨⟨_, _, hlen⟩, _, rfl⟩ := nextFrame_eq_frame.mp h
    rw [List.length_drop]
    simp only [headerSize] at *
    omega
  frame_append := by
    intro xs f rest ys h
    obtain ⟨⟨hpos, hle, hlen⟩, rfl, rfl⟩ := nextFrame_eq_frame.mp h
    rw [nextFrame_eq_frame, peekLength_append ys (by omega)]
    refine ⟨⟨hpos, hle, ?_⟩, ?_, ?_⟩
    · rw [List.length_append]
      omega
    · rw [List.drop_append_of_le_length (by omega), List.take_append_of_le_length]
      rw [List.length_drop]
      omega
    · rw [List.drop_append_of_le_length hlen]
  bad_append := by
    intro xs e ys h
    obtain ⟨hhead, hcase⟩ := nextFrame_eq_bad.mp h
    rw [nextFrame_eq_bad, peekLength_append ys hhead, List.length_append]
    exact ⟨by omega, hcase⟩

theorem frameScanner_next (m : Nat) (xs : List UInt8) :
    (frameScanner m).next xs = nextFrame m xs := rfl

/-- The scanner's errors are those of malformed headers. -/
theorem scan_error {m : Nat} {xs : List UInt8} {e : CodecError}
    (h : ((frameScanner m).scan xs).error = some e) : e = .emptyFrame ∨ e = .frameTooLarge := by
  have hbad := (frameScanner m).next_rest xs
  rw [h, frameScanner_next] at hbad
  obtain ⟨_, ⟨_, he⟩ | ⟨_, _, he⟩⟩ := nextFrame_eq_bad.mp hbad
  · exact Or.inl he
  · exact Or.inr he

/-! ## The loop of `feed` -/

theorem peekLength_drop (buffer : List UInt8) (readOffset : Nat) :
    peekLength (buffer.drop readOffset) 0 = peekLength buffer readOffset := rfl

/-- One round of the loop looks at the unread bytes only. -/
theorem feedLoop_eq (m : Nat) (buffer : List UInt8) (readOffset : Nat) (frames : List Frame) :
    feedLoop m buffer readOffset frames = match nextFrame m (buffer.drop readOffset) with
      | .more => (.none, frames, readOffset)
      | .bad e => (e, frames, readOffset)
      | .frame f _ =>
        feedLoop m buffer
          (readOffset + (headerSize + (peekLength (buffer.drop readOffset) 0).toNat))
          (frames ++ [f]) := by
  rw [feedLoop]
  simp only [nextFrame, List.length_drop, peekLength_drop]
  split
  · split
    · rfl
    split
    · rfl
    split
    · rfl
    · simp only [List.drop_drop]
  · rfl

/-- **The loop scans the unread bytes.** -/
theorem feedLoop_scan {m : Nat} {buffer bytes : List UInt8} {readOffset : Nat}
    (hbytes : buffer.drop readOffset = bytes) (hoffset : readOffset ≤ buffer.length)
    (frames : List Frame) :
    ∃ offset ≤ buffer.length, buffer.drop offset = ((frameScanner m).scan bytes).rest ∧
      feedLoop m buffer readOffset frames =
        (((frameScanner m).scan bytes).error.getD .none,
          frames ++ ((frameScanner m).scan bytes).frames, offset) := by
  induction bytes using Scanner.scan_induction (s := frameScanner m)
    generalizing readOffset frames with
  | hmore xs h =>
    rw [feedLoop_eq, hbytes, ← frameScanner_next, h, Scanner.scan_more h]
    exact ⟨readOffset, hoffset, hbytes, by simp⟩
  | hbad xs e h =>
    rw [feedLoop_eq, hbytes, ← frameScanner_next, h, Scanner.scan_bad h]
    exact ⟨readOffset, hoffset, hbytes, by simp⟩
  | hframe xs f rest h ih =>
    obtain ⟨⟨_, _, hlen⟩, _, hrest⟩ := nextFrame_eq_frame.mp h
    rw [feedLoop_eq, hbytes, ← frameScanner_next, h, Scanner.scan_frame h]
    have hnext : buffer.drop (readOffset + (headerSize + (peekLength xs 0).toNat)) = rest := by
      rw [← List.drop_drop, hbytes, hrest]
    have hle : readOffset + (headerSize + (peekLength xs 0).toNat) ≤ buffer.length := by
      rw [← hbytes, List.length_drop] at hlen
      rw [← hbytes]
      omega
    obtain ⟨offset, hend, hdrop, heq⟩ := ih hnext hle (frames ++ [f])
    exact ⟨offset, hend, hdrop, by simpa using heq⟩

/-! ## One feed -/

theorem length_unread (codec : LengthFieldCodec) : codec.unread.length = codec.bufferedBytes :=
  List.length_drop

/-- Compaction drops read bytes only. -/
@[simp] theorem unread_compact (codec : LengthFieldCodec) :
    codec.compact.unread = codec.unread := by
  unfold compact unread
  split
  · rfl
  split
  · rename_i hend
    rw [hend, List.drop_length, List.drop_nil]
  split <;> rfl

@[simp] theorem failed_compact (codec : LengthFieldCodec) :
    codec.compact.failed = codec.failed := by
  unfold compact
  split
  · rfl
  split
  · rfl
  split <;> rfl

@[simp] theorem maxFrameSize_compact (codec : LengthFieldCodec) :
    codec.compact.maxFrameSize = codec.maxFrameSize := by
  unfold compact
  split
  · rfl
  split
  · rfl
  split <;> rfl

/-- Between feeds: nothing has failed, and more bytes are needed. -/
structure Waiting (m : Nat) (bytes : List UInt8) (codec : LengthFieldCodec) : Prop where
  limit : codec.maxFrameSize = m
  working : codec.failed = false
  unread : codec.unread = bytes
  within : codec.readOffset ≤ codec.buffer.length
  more : nextFrame m bytes = .more

theorem compact_within {codec : LengthFieldCodec} (h : codec.readOffset ≤ codec.buffer.length) :
    codec.compact.readOffset ≤ codec.compact.buffer.length := by
  unfold compact
  split
  · exact h
  split
  · exact Nat.le_refl _
  split
  · exact Nat.zero_le _
  · exact h

variable {m : Nat} {bytes data : List UInt8} {codec : LengthFieldCodec}

theorem create_waiting (h : create m = .ok codec) : Waiting m [] codec := by
  unfold create at h
  split at h
  · exact absurd h (by simp)
  · cases h
    exact ⟨rfl, rfl, rfl, Nat.le_refl _, rfl⟩

theorem Waiting.scan (hw : Waiting m bytes codec) :
    (frameScanner m).scan bytes = { rest := bytes } := Scanner.scan_more hw.more

/-- A feed that fits the buffer and is not empty runs the loop over the bytes it has then. -/
theorem Waiting.feed_eq (hw : Waiting m bytes codec)
    (hfit : codec.bufferedBytes + data.length ≤ m + headerSize) (hdata : data ≠ []) :
    ∃ offset ≤ (codec.buffer ++ data).length,
      (codec.buffer ++ data).drop offset = ((frameScanner m).scan (bytes ++ data)).rest ∧
      codec.feed data =
        match ((frameScanner m).scan (bytes ++ data)).error.getD .none with
        | .none =>
          ({ frames := ((frameScanner m).scan (bytes ++ data)).frames },
            compact { codec with buffer := codec.buffer ++ data, readOffset := offset })
        | error =>
          fail { codec with buffer := codec.buffer ++ data, readOffset := offset } error := by
  have hbytes : (codec.buffer ++ data).drop codec.readOffset = bytes ++ data := by
    rw [List.drop_append_of_le_length hw.within]
    exact congrArg (· ++ data) hw.unread
  have hwithin : codec.readOffset ≤ (codec.buffer ++ data).length := by
    rw [List.length_append]
    exact Nat.le_trans hw.within (Nat.le_add_right _ _)
  obtain ⟨offset, hle, hdrop, hloop⟩ := feedLoop_scan (m := m) hbytes hwithin []
  refine ⟨offset, hle, hdrop, ?_⟩
  have hlimit := hw.limit
  rw [feed, if_neg (by simp [hw.working]), if_neg (by simpa using hdata), if_neg (by omega)]
  simp only [hlimit, hloop, List.nil_append]
  generalize ((frameScanner m).scan (bytes ++ data)).error.getD .none = error
  cases error <;> rfl

/-- **A feed without a malformed header** returns the frames the bytes hold. -/
theorem Waiting.feed_of_ok (hw : Waiting m bytes codec)
    (hfit : codec.bufferedBytes + data.length ≤ m + headerSize)
    (hok : ((frameScanner m).scan (bytes ++ data)).error = none) :
    ∃ after, codec.feed data =
        ({ frames := ((frameScanner m).scan (bytes ++ data)).frames }, after) ∧
      Waiting m ((frameScanner m).scan (bytes ++ data)).rest after := by
  by_cases hdata : data = []
  · subst hdata
    refine ⟨codec, ?_, ?_⟩
    · rw [List.append_nil, hw.scan, feed, if_neg (by simp [hw.working])]
      rfl
    · rw [List.append_nil, hw.scan]
      exact hw
  · obtain ⟨offset, hle, hdrop, hfeed⟩ := hw.feed_eq hfit hdata
    rw [hok] at hfeed
    refine ⟨_, hfeed, by simpa using hw.limit, by simpa using hw.working, ?_, ?_, ?_⟩
    · rw [unread_compact]
      exact hdrop
    · exact compact_within hle
    · rw [← frameScanner_next, Scanner.next_rest, hok]

/-- **A feed that meets a malformed header** returns the error and no frame. -/
theorem Waiting.feed_of_bad {e : CodecError} (hw : Waiting m bytes codec)
    (hfit : codec.bufferedBytes + data.length ≤ m + headerSize)
    (hbad : ((frameScanner m).scan (bytes ++ data)).error = some e) :
    ∃ after, codec.feed data = ({ error := e }, after) ∧ e ≠ .none := by
  have hdata : data ≠ [] := by
    rintro rfl
    rw [List.append_nil, hw.scan] at hbad
    exact absurd hbad (by simp)
  obtain ⟨offset, -, -, hfeed⟩ := hw.feed_eq hfit hdata
  rw [hbad] at hfeed
  rcases scan_error hbad with rfl | rfl
  · exact ⟨_, hfeed, by simp⟩
  · exact ⟨_, hfeed, by simp⟩

end LengthFieldCodec

end PokerServer
