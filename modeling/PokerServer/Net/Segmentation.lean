import PokerServer.Net.LengthFieldCodec

/-!
# A stream of frames, cut into chunks

TCP delivers the bytes of a stream in chunks of its own choosing. `Fits` says of the chunks that no
feed brings the unread bytes above what the decoder may hold.

* `frames_round_trip`: encoded payloads come out again, however they are cut.
* `delivers_iff`: for an arbitrary stream, `feed` drops the frames it has read when it meets a
  malformed header in the same chunk. Two ways of cutting a stream deliver the same, all frames in
  front of the malformed header included, exactly when in both of them no chunk begins in front
  of that header and reaches its last byte.
-/

namespace PokerServer

namespace LengthFieldCodec

/-- No feed, up to and including the first one that reports an error, brings the unread bytes above
`max_frame_size + header_size`. -/
def Fits (codec : LengthFieldCodec) : List (List UInt8) → Prop
  | [] => True
  | chunk :: chunks =>
    codec.bufferedBytes + chunk.length ≤ codec.maxFrameSize + headerSize ∧
      ((codec.feed chunk).1.error = .none → Fits (codec.feed chunk).2 chunks)

instance decidableFits : ∀ (codec : LengthFieldCodec) (chunks), Decidable (codec.Fits chunks)
  | _, [] => inferInstanceAs (Decidable True)
  | codec, chunk :: chunks =>
    have := decidableFits (codec.feed chunk).2 chunks
    inferInstanceAs (Decidable (_ ∧ (_ → _)))

variable {m : Nat} {bytes : List UInt8} {codec : LengthFieldCodec} {chunks : List (List UInt8)}

/-! ## Streams without a malformed header -/

/-- **A stream without a malformed header** is scanned as a whole. -/
theorem Waiting.feedAll_of_ok (hw : Waiting m bytes codec) (hfits : codec.Fits chunks)
    (hok : ((frameScanner m).scan (bytes ++ chunks.flatten)).error = none) :
    ∃ after, codec.feedAll chunks =
        ({ frames := ((frameScanner m).scan (bytes ++ chunks.flatten)).frames }, after) ∧
      Waiting m ((frameScanner m).scan (bytes ++ chunks.flatten)).rest after := by
  induction chunks generalizing bytes codec with
  | nil =>
    rw [List.flatten_nil, List.append_nil, hw.scan]
    exact ⟨codec, rfl, hw⟩
  | cons chunk chunks ih =>
    obtain ⟨hsize, hlater⟩ := hfits
    rw [hw.limit] at hsize
    rw [List.flatten_cons, ← List.append_assoc] at hok ⊢
    cases hchunk : ((frameScanner m).scan (bytes ++ chunk)).error with
    | some e =>
      rw [Scanner.scan_append_of_bad hchunk, hchunk] at hok
      exact absurd hok (by simp)
    | none =>
      rw [Scanner.scan_append_of_ok hchunk] at hok ⊢
      obtain ⟨next, hfeed, hnext⟩ := hw.feed_of_ok hsize hchunk
      rw [hfeed] at hlater
      obtain ⟨after, hall, hafter⟩ := ih hnext (hlater rfl) hok
      refine ⟨after, ?_, hafter⟩
      rw [feedAll, hfeed]
      simp only [if_true, hall]

/-- One-byte chunks fit, whatever the stream. -/
theorem Waiting.fits_of_bytes (hw : Waiting m bytes codec)
    (hone : ∀ chunk ∈ chunks, chunk.length = 1) : codec.Fits chunks := by
  induction chunks generalizing bytes codec with
  | nil => trivial
  | cons chunk chunks ih =>
    have hlen := hone chunk List.mem_cons_self
    have hlt := length_lt_of_more hw.more
    have hsize : codec.bufferedBytes + chunk.length ≤ m + headerSize := by
      rw [← length_unread, hw.unread]
      omega
    refine ⟨hw.limit ▸ hsize, fun hnone => ?_⟩
    cases hchunk : ((frameScanner m).scan (bytes ++ chunk)).error with
    | some e =>
      obtain ⟨_, hfeed, he⟩ := hw.feed_of_bad hsize hchunk
      rw [hfeed] at hnone
      exact absurd hnone he
    | none =>
      obtain ⟨next, hfeed, hnext⟩ := hw.feed_of_ok hsize hchunk
      rw [hfeed]
      exact ih hnext fun c hc => hone c (List.mem_cons_of_mem _ hc)

/-! ## What `encode` makes -/

/-- The bytes of one frame. -/
def frameBytes (payload : Frame) : List UInt8 :=
  header (UInt32.ofNat payload.length) ++ payload

theorem encode_eq_ok {payload : Frame} (hpos : 1 ≤ payload.length) (hle : payload.length ≤ m)
    (hmax : m ≤ 2 ^ 32 - 1) : encode payload m = .ok (frameBytes payload) := by
  have hne : payload ≠ [] := List.ne_nil_of_length_pos hpos
  rw [encode, if_neg (by simpa using hne), if_neg (by omega)]
  rfl

/-- An encoded payload at the front is found as a frame. -/
theorem nextFrame_frameBytes {payload : Frame} (hpos : 1 ≤ payload.length)
    (hle : payload.length ≤ m) (hmax : m ≤ 2 ^ 32 - 1) (rest : List UInt8) :
    nextFrame m (frameBytes payload ++ rest) = .frame payload rest := by
  have hlength : (peekLength (frameBytes payload ++ rest) 0).toNat = payload.length := by
    rw [frameBytes, List.append_assoc, peekLength_header, UInt32.toNat_ofNat_of_lt']
    exact Nat.lt_of_le_of_lt (Nat.le_trans hle hmax) (by decide)
  have hdrop : (frameBytes payload ++ rest).drop headerSize = payload ++ rest := rfl
  rw [nextFrame_eq_frame, hlength, ← List.drop_drop, hdrop, List.take_left, List.drop_left]
  refine ⟨⟨hpos, hle, ?_⟩, rfl, rfl⟩
  rw [frameBytes]
  simp only [List.length_append, length_header]
  omega

theorem scan_frameBytes {payloads : List Frame} (hmax : m ≤ 2 ^ 32 - 1)
    (hsize : ∀ payload ∈ payloads, 1 ≤ payload.length ∧ payload.length ≤ m) :
    (frameScanner m).scan (payloads.map frameBytes).flatten =
    { frames := payloads, rest := [] } := by
  induction payloads with
  | nil => exact Scanner.scan_more rfl
  | cons payload payloads ih =>
    obtain ⟨hpos, hle⟩ := hsize payload List.mem_cons_self
    rw [List.map_cons, List.flatten_cons,
      Scanner.scan_frame (nextFrame_frameBytes hpos hle hmax _),
      ih fun p hp => hsize p (List.mem_cons_of_mem _ hp)]

theorem mapM_encode {payloads : List Frame} (hmax : m ≤ 2 ^ 32 - 1)
    (hsize : ∀ payload ∈ payloads, 1 ≤ payload.length ∧ payload.length ≤ m) :
    payloads.mapM (encode · m) = .ok (payloads.map frameBytes) := by
  induction payloads with
  | nil => rfl
  | cons payload payloads ih =>
    obtain ⟨hpos, hle⟩ := hsize payload List.mem_cons_self
    rw [List.mapM_cons, encode_eq_ok hpos hle hmax,
      ih fun p hp => hsize p (List.mem_cons_of_mem _ hp)]
    rfl

theorem create_eq_ok (hpos : 1 ≤ m) (hmax : m ≤ 2 ^ 32 - 1) : ∃ codec, create m = .ok codec := by
  rw [create, dif_neg (by omega)]
  exact ⟨_, rfl⟩

/-- **Encoded payloads come out again, however the stream is cut.** -/
theorem frames_round_trip (hpos : 1 ≤ m) (hmax : m ≤ 2 ^ 32 - 1) (payloads : List Frame)
    (hsize : ∀ payload ∈ payloads, 1 ≤ payload.length ∧ payload.length ≤ m) :
    ∃ codec encoded, create m = .ok codec ∧ payloads.mapM (encode · m) = .ok encoded ∧
      (∀ chunks : List (List UInt8), chunks.flatten = encoded.flatten → codec.Fits chunks →
        (codec.feedAll chunks).1.error = .none ∧ (codec.feedAll chunks).1.frames = payloads ∧
          (codec.feedAll chunks).2.bufferedBytes = 0) ∧
      ∀ chunks : List (List UInt8), (∀ chunk ∈ chunks, chunk.length = 1) →
        codec.Fits chunks := by
  obtain ⟨codec, hnew⟩ := create_eq_ok hpos hmax
  have hw := create_waiting hnew
  refine ⟨codec, _, hnew, mapM_encode hmax hsize, fun chunks hcut hfits => ?_,
    fun chunks hone => hw.fits_of_bytes hone⟩
  have hscan := scan_frameBytes hmax hsize
  rw [← hcut] at hscan
  obtain ⟨after, hall, hafter⟩ := hw.feedAll_of_ok hfits (by rw [List.nil_append, hscan])
  rw [List.nil_append, hscan] at hall hafter
  rw [hall]
  refine ⟨rfl, rfl, ?_⟩
  rw [← length_unread, hafter.unread]
  rfl

theorem frames_round_trip_two : ∃ codec encoded, create 16 = .ok codec ∧
    [[7], [8, 9]].mapM (encode · 16) = .ok encoded ∧
      (∀ chunks : List (List UInt8), chunks.flatten = encoded.flatten → codec.Fits chunks →
        (codec.feedAll chunks).1.error = .none ∧
          (codec.feedAll chunks).1.frames = [[7], [8, 9]] ∧
          (codec.feedAll chunks).2.bufferedBytes = 0) ∧
      ∀ chunks : List (List UInt8), (∀ chunk ∈ chunks, chunk.length = 1) →
        codec.Fits chunks :=
  frames_round_trip (by decide) (by decide) [[7], [8, 9]] (by decide)

/-! ## Streams with a malformed header -/

/-- The offset of the first malformed header of a stream. -/
def malformedAt (maxFrameSize : Nat) (stream : List UInt8) : Option Nat :=
  ((frameScanner maxFrameSize).scan stream).error.map fun _ =>
    (frameScanner maxFrameSize).position stream

/-- Of the chunks from `offset` on that begin in front of `position`, none reaches the last byte of
the header there. -/
def Separates (position : Nat) : Nat → List (List UInt8) → Prop
  | _, [] => True
  | offset, chunk :: chunks =>
    (offset < position → offset + chunk.length < position + headerSize) ∧
      Separates position (offset + chunk.length) chunks

theorem separates_shift (k position : Nat) (chunks : List (List UInt8)) (offset : Nat) :
    Separates (k + position) (k + offset) chunks ↔ Separates position offset chunks := by
  induction chunks generalizing offset with
  | nil => exact Iff.rfl
  | cons chunk chunks ih =>
    rw [Separates, Separates, Nat.add_assoc k offset, ih, Nat.add_lt_add_iff_left,
      Nat.add_assoc k position, Nat.add_lt_add_iff_left]

theorem separates_zero (offset : Nat) (chunks : List (List UInt8)) :
    Separates 0 offset chunks := by
  induction chunks generalizing offset with
  | nil => trivial
  | cons chunk chunks ih => exact ⟨fun h => absurd h (Nat.not_lt_zero _), ih _⟩

/-- The bytes a decoder waits with end in front of the last byte of the first malformed header,
and in front of the header itself unless the stream begins with it. -/
theorem Waiting.short (hw : Waiting m bytes codec) {ys : List UInt8} {e : CodecError}
    (hbad : ((frameScanner m).scan (bytes ++ ys)).error = some e) :
    (frameScanner m).position (bytes ++ ys) = 0 ∧ bytes.length < headerSize ∨
      bytes.length < (frameScanner m).position (bytes ++ ys) := by
  rcases Scanner.position_of_error hbad with ⟨hnext, hzero⟩ | ⟨f, rest, hnext, hle⟩
  · exact Or.inl ⟨hzero, ne_bad_of_more hw.more hnext⟩
  · have hlt := frame_end_of_more hw.more hnext
    exact Or.inr (by omega)

/-- A malformed header has four bytes. -/
theorem header_le_rest {bytes : List UInt8} {e : CodecError}
    (hbad : ((frameScanner m).scan bytes).error = some e) :
    (frameScanner m).position bytes + headerSize ≤ bytes.length := by
  have hnext := (frameScanner m).next_rest bytes
  rw [hbad, frameScanner_next] at hnext
  have hlen := (nextFrame_eq_bad.mp hnext).1
  have hle := (frameScanner m).rest_length_le bytes
  unfold Scanner.position
  omega

/-- **A stream with a malformed header** ends in its error; the frames in front of that header are
all delivered exactly when the chunks separate them from it. -/
theorem Waiting.feedAll_of_bad {e : CodecError} (hw : Waiting m bytes codec)
    (hfits : codec.Fits chunks)
    (hbad : ((frameScanner m).scan (bytes ++ chunks.flatten)).error = some e) :
    (codec.feedAll chunks).1.error = e ∧
      ((codec.feedAll chunks).1.frames =
          ((frameScanner m).scan (bytes ++ chunks.flatten)).frames ↔
        Separates ((frameScanner m).position (bytes ++ chunks.flatten)) bytes.length chunks) := by
  induction chunks generalizing bytes codec with
  | nil =>
    rw [List.flatten_nil, List.append_nil, hw.scan] at hbad
    exact absurd hbad (by simp)
  | cons chunk chunks ih =>
    obtain ⟨hsize, hlater⟩ := hfits
    rw [hw.limit] at hsize
    rw [List.flatten_cons, ← List.append_assoc] at hbad ⊢
    rw [feedAll, Separates]
    cases hchunk : ((frameScanner m).scan (bytes ++ chunk)).error with
    | some e' =>
      rw [Scanner.scan_append_of_bad hchunk, hchunk] at hbad
      obtain rfl := Option.some.inj hbad
      obtain ⟨_, hfeed, he⟩ := hw.feed_of_bad hsize hchunk
      have hlen := header_le_rest hchunk
      rw [List.length_append] at hlen
      rw [Scanner.scan_append_of_bad hchunk, Scanner.position_append_of_bad hchunk, hfeed]
      simp only [if_neg he, true_and]
      -- the frames read by this feed are dropped
      rw [eq_comm, ← Scanner.position_eq_zero]
      constructor
      · intro hzero
        rw [hzero]
        exact ⟨fun h => absurd h (Nat.not_lt_zero _), separates_zero _ _⟩
      · rintro ⟨hfirst, -⟩
        rcases hw.short hchunk with ⟨hzero, -⟩ | hlt
        · exact hzero
        · have hlt' := hfirst hlt
          omega
    | none =>
      obtain ⟨next, hfeed, hnext⟩ := hw.feed_of_ok hsize hchunk
      rw [Scanner.scan_append_of_ok hchunk] at hbad ⊢
      rw [hfeed] at hlater
      obtain ⟨herror, hframes⟩ := ih hnext (hlater rfl) hbad
      rw [hfeed]
      simp only [if_true]
      refine ⟨herror, ?_⟩
      rw [List.append_cancel_left_eq, hframes, Scanner.position_append_of_ok hchunk]
      have hshort := hnext.short hbad
      have hrest := (frameScanner m).rest_length_le (bytes ++ chunk)
      have hposition : (frameScanner m).position (bytes ++ chunk)
          + ((frameScanner m).scan (bytes ++ chunk)).rest.length = bytes.length + chunk.length := by
        rw [← List.length_append]
        unfold Scanner.position
        omega
      rw [← hposition, separates_shift]
      exact ⟨fun h => ⟨fun _ => by omega, h⟩, fun h => h.2⟩

/-- **When decoding does not depend on segmentation.** -/
theorem delivers_iff {m : Nat} {codec : LengthFieldCodec} (hnew : create m = .ok codec)
    {stream : List UInt8} {chunks chunks' : List (List UInt8)} (hcut : chunks.flatten = stream)
    (hcut' : chunks'.flatten = stream) (hfits : codec.Fits chunks) (hfits' : codec.Fits chunks') :
    ((codec.feedAll chunks).1.frames = (codec.feedAll chunks').1.frames ∧
        (codec.feedAll chunks).1.error = (codec.feedAll chunks').1.error ∧
        (codec.feedAll chunks).1.frames = ((frameScanner m).scan stream).frames ∧
        (codec.feedAll chunks').1.frames = ((frameScanner m).scan stream).frames) ↔
      ∀ position, malformedAt m stream = some position →
        Separates position 0 chunks ∧ Separates position 0 chunks' := by
  have hw := create_waiting hnew
  rw [malformedAt]
  cases hscan : ((frameScanner m).scan stream).error with
  | none =>
    obtain ⟨_, hall, -⟩ := hw.feedAll_of_ok hfits (by rw [hcut]; exact hscan)
    obtain ⟨_, hall', -⟩ := hw.feedAll_of_ok hfits' (by rw [hcut']; exact hscan)
    rw [hall, hall', hcut, hcut']
    simp
  | some e =>
    obtain ⟨herror, hframes⟩ := hw.feedAll_of_bad hfits (by rw [hcut]; exact hscan)
    obtain ⟨herror', hframes'⟩ := hw.feedAll_of_bad hfits' (by rw [hcut']; exact hscan)
    rw [hcut, List.nil_append] at hframes
    rw [hcut', List.nil_append] at hframes'
    simp only [Option.map_some, Option.some.injEq, forall_eq']
    rw [herror, herror']
    constructor
    · rintro ⟨-, -, h, h'⟩
      exact ⟨hframes.mp h, hframes'.mp h'⟩
    · rintro ⟨h, h'⟩
      have hsame := hframes.mpr h
      have hsame' := hframes'.mpr h'
      exact ⟨hsame.trans hsame'.symm, rfl, hsame, hsame'⟩

/-- A frame in one chunk, the malformed header behind it in another. -/
theorem delivers_iff_separated : ∃ codec, create 16 = .ok codec ∧
    ((codec.feedAll [[0, 0, 0, 1, 7], [0, 0, 0, 0]]).1.frames =
        (codec.feedAll [[0, 0, 0, 1, 7, 0], [0, 0], [0]]).1.frames ∧
      (codec.feedAll [[0, 0, 0, 1, 7], [0, 0, 0, 0]]).1.error =
        (codec.feedAll [[0, 0, 0, 1, 7, 0], [0, 0], [0]]).1.error ∧
      (codec.feedAll [[0, 0, 0, 1, 7], [0, 0, 0, 0]]).1.frames =
        ((frameScanner 16).scan [0, 0, 0, 1, 7, 0, 0, 0, 0]).frames ∧
      (codec.feedAll [[0, 0, 0, 1, 7, 0], [0, 0], [0]]).1.frames =
        ((frameScanner 16).scan [0, 0, 0, 1, 7, 0, 0, 0, 0]).frames) := by
  refine ⟨_, rfl, ?_⟩
  refine (delivers_iff (m := 16) (by rfl) (by rfl) (by rfl) ?_ ?_).mpr ?_
  · decide +kernel
  · decide +kernel
  · intro position hposition
    have hfive : malformedAt 16 [0, 0, 0, 1, 7, 0, 0, 0, 0] = some 5 := by
      decide +kernel
    obtain rfl := Option.some.inj (hposition.symm.trans hfive)
    simp [Separates, headerSize]

/-- The frame is lost when the malformed header behind it comes in the same chunk. -/
theorem coalesced_frame_lost : ∃ codec, create 16 = .ok codec ∧
    codec.Fits [[0, 0, 0, 1, 7, 0, 0, 0, 0]] ∧
    codec.Fits [[0], [0], [0], [1], [7], [0], [0], [0], [0]] ∧
    (codec.feedAll [[0, 0, 0, 1, 7, 0, 0, 0, 0]]).1 = { error := .emptyFrame, frames := [] } ∧
    (codec.feedAll [[0], [0], [0], [1], [7], [0], [0], [0], [0]]).1 =
      { error := .emptyFrame, frames := [[7]] } := by
  refine ⟨_, rfl, ?_⟩
  decide +kernel

end LengthFieldCodec

end PokerServer
