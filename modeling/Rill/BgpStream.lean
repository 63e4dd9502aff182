import Rill.BgpPanics
import Rill.Incremental

/-!
# The stream of BGP messages

`FrameReader` of `rill-dn42/src/wire/mod.rs`. It checks the marker and the length of a frame as
soon as the header is there, and decodes the frame once it is complete. A chunk that fails leaves
the frame that failed in the buffer.
-/

namespace Rill.Bgp
open Attempt Incremental

structure FrameReader where
  buf : Bytes := []
  deriving DecidableEq

/-- One turn of the loop in `feed`; `none` is the return that waits for more. -/
def nextFrame (buf : Bytes) : Attempt WireError (Option (Message × Bytes)) :=
  if buf.length < headerLen then .ok none
  else do
    let marker ← slice buf 0 16
    ensure (marker.all (· == 0xff)) .badMarker
    let len ← u16At buf 16
    ensure (headerLen ≤ len.toNat ∧ len.toNat ≤ maxMsgLen) (.badLength len)
    if buf.length < len.toNat then .ok none
    else
      let frame ← slice buf 0 len.toNat
      let m ← decode frame
      let rest ← sliceFrom buf len.toNat
      .ok (some (m, rest))

/-- `FrameReader::feed`: the reader afterwards, the messages it pushed and the result. -/
def FrameReader.feed (r : FrameReader) (data : Bytes) :
    FrameReader × List Message × Attempt WireError Unit :=
  let run := drain nextFrame (r.buf ++ data)
  (⟨run.rest⟩, run.items, run.outcome)

def FrameReader.feedChunks (r : FrameReader) :
    List Bytes → FrameReader × List Message × Attempt WireError Unit
  | [] => (r, [], .ok ())
  | chunk :: chunks =>
    let (r', ms, res) := r.feed chunk
    match res with
    | .ok () =>
      let (r'', ms', res') := r'.feedChunks chunks
      (r'', ms ++ ms', res')
    | _ => (r', ms, res)

theorem FrameReader.feedChunks_eq (r : FrameReader) (chunks : List Bytes) :
    r.feedChunks chunks = (⟨(feedAll nextFrame r.buf chunks).rest⟩,
      (feedAll nextFrame r.buf chunks).items, (feedAll nextFrame r.buf chunks).outcome) := by
  induction chunks generalizing r with
  | nil => rfl
  | cons chunk chunks ih =>
    simp only [feedChunks, feed, feedAll]
    obtain ⟨items, outcome, rest⟩ := drain nextFrame (r.buf ++ chunk)
    cases outcome with
    | ok _ =>
      simp only [ih]
      rfl
    | error e => rfl
    | panics => rfl

def frameLen (buf : Bytes) : ℕ := readBE (field 16 2 buf)

theorem nextFrame_eq {buf : Bytes} (hlen : headerLen ≤ buf.length) : nextFrame buf = (do
    ensure ((buf.take 16).all (· == 0xff) = true) .badMarker
    ensure (headerLen ≤ frameLen buf ∧ frameLen buf ≤ maxMsgLen)
      (.badLength (UInt16.ofNat (frameLen buf)))
    if buf.length < frameLen buf then .ok none
    else decode (buf.take (frameLen buf)) >>= fun m =>
      .ok (some (m, buf.drop (frameLen buf)))) := by
  have h19 : 19 ≤ buf.length := hlen
  have hfield : (UInt16.ofNat (readBE (field 16 2 buf))).toNat = frameLen buf :=
    toNat_ofNat_readBE (List.length_take_le _ _)
  rw [nextFrame, if_neg (by omega), slice_eq (by omega) (by omega), ok_bind, List.drop_zero,
    u16At_eq (by omega), ok_bind, hfield, Nat.sub_zero]
  refine congrArg _ (funext fun _ => congrArg _ (funext fun _ => ?_))
  split
  · rfl
  · rw [slice_eq (Nat.zero_le _) (by omega), ok_bind, List.drop_zero, Nat.sub_zero,
      sliceFrom_eq (by omega)]
    rfl

theorem frameLen_append {buf : Bytes} (hlen : headerLen ≤ buf.length) (more : Bytes) :
    frameLen (buf ++ more) = frameLen buf := by
  have h19 : 19 ≤ buf.length := hlen
  rw [frameLen, frameLen, field, field, List.drop_append_of_le_length (by omega),
    List.take_append_of_le_length (by rw [List.length_drop]; omega)]

/-- What `nextFrame` decides before the frame is complete, and the frame when it is. -/
theorem nextFrame_cases (buf : Bytes) :
    nextFrame buf = .ok none ∧ buf.length < maxMsgLen ∨
    headerLen ≤ buf.length ∧ ((∃ e, ∀ more, nextFrame (buf ++ more) = .error e) ∨
      headerLen ≤ frameLen buf ∧ frameLen buf ≤ buf.length ∧
        ∀ more, nextFrame (buf ++ more) = (decode (buf.take (frameLen buf)) >>= fun m =>
          .ok (some (m, buf.drop (frameLen buf) ++ more)))) := by
  by_cases hlen : headerLen ≤ buf.length
  swap
  · refine Or.inl ⟨by rw [nextFrame, if_pos (by omega)], ?_⟩
    have h19 : ¬ 19 ≤ buf.length := hlen
    show buf.length < 4096
    omega
  have h16 : 16 ≤ buf.length := le_trans (by decide) hlen
  have happend : ∀ more : Bytes, headerLen ≤ (buf ++ more).length := by
    intro more
    rw [List.length_append]
    omega
  have hmore : ∀ more, nextFrame (buf ++ more) = _ := fun more => nextFrame_eq (happend more)
  simp only [frameLen_append hlen, List.take_append_of_le_length h16] at hmore
  by_cases hmarker : (buf.take 16).all (· == 0xff) = true
  swap
  · refine Or.inr ⟨hlen, Or.inl ⟨.badMarker, fun more => ?_⟩⟩
    rw [hmore, ensure_bind, if_neg hmarker]
  by_cases hrange : headerLen ≤ frameLen buf ∧ frameLen buf ≤ maxMsgLen
  swap
  · refine Or.inr ⟨hlen, Or.inl ⟨.badLength (UInt16.ofNat (frameLen buf)), fun more => ?_⟩⟩
    rw [hmore, ensure_bind_of hmarker, ensure_bind, if_neg hrange]
  by_cases hfull : buf.length < frameLen buf
  · refine Or.inl ⟨?_, lt_of_lt_of_le hfull hrange.2⟩
    rw [nextFrame_eq hlen, ensure_bind_of hmarker, ensure_bind_of hrange, if_pos hfull]
  · refine Or.inr ⟨hlen, Or.inr ⟨hrange.1, by omega, fun more => ?_⟩⟩
    rw [hmore, ensure_bind_of hmarker, ensure_bind_of hrange,
      if_neg (by rw [List.length_append]; omega), List.take_append_of_le_length (by omega),
      List.drop_append_of_le_length (by omega)]

theorem nextFrame_eq_item {buf rest : Bytes} {m : Message}
    (h : nextFrame buf = .ok (some (m, rest))) :
    decode (buf.take (frameLen buf)) = .ok m ∧ rest = buf.drop (frameLen buf) ∧
      rest.length < buf.length ∧
        ∀ more, nextFrame (buf ++ more) = .ok (some (m, rest ++ more)) := by
  rcases nextFrame_cases buf with ⟨hwait, -⟩ | ⟨-, ⟨e, herror⟩ | ⟨hpos, hle, hframe⟩⟩
  · rw [hwait] at h
    nomatch h
  · have hnil := herror []
    rw [List.append_nil, h] at hnil
    nomatch hnil
  · have hnil := hframe []
    rw [List.append_nil, h] at hnil
    obtain ⟨m', hdecode, heq⟩ := bind_eq_ok.mp hnil.symm
    rw [List.append_nil] at heq
    cases heq
    refine ⟨hdecode, rfl, ?_, fun more => by rw [hframe, hdecode, ok_bind]⟩
    have h19 : 19 ≤ frameLen buf := hpos
    rw [List.length_drop]
    omega

theorem stable_nextFrame : Stable nextFrame where
  consumes := fun _ _ _ h => (nextFrame_eq_item h).2.2.1
  item := fun _ _ _ more h => (nextFrame_eq_item h).2.2.2 more
  error := by
    intro buf e more h
    rcases nextFrame_cases buf with ⟨hwait, -⟩ | ⟨-, ⟨e', herror⟩ | ⟨-, -, hframe⟩⟩
    · rw [hwait] at h
      nomatch h
    · rw [← List.append_nil buf, herror] at h
      rw [herror, h]
    · rw [← List.append_nil buf, hframe] at h
      rw [hframe]
      cases hdecode : decode (buf.take (frameLen buf)) with
      | ok m =>
        rw [hdecode] at h
        nomatch h
      | error e' =>
        rw [hdecode] at h
        exact h
      | panics =>
        rw [hdecode] at h
        nomatch h
  panics := by
    intro buf more h
    rcases nextFrame_cases buf with ⟨hwait, -⟩ | ⟨-, ⟨e, herror⟩ | ⟨-, -, hframe⟩⟩
    · rw [hwait] at h
      nomatch h
    · rw [← List.append_nil buf, herror] at h
      nomatch h
    · rw [← List.append_nil buf, hframe, bind_ok_eq_panics] at h
      rw [hframe, h, panics_bind]

theorem nextFrame_nil : nextFrame [] = .ok none := rfl

theorem length_lt_of_wait {buf : Bytes} (h : nextFrame buf = .ok none) :
    buf.length < maxMsgLen := by
  rcases nextFrame_cases buf with ⟨-, hlt⟩ | ⟨-, ⟨e, herror⟩ | ⟨-, -, hframe⟩⟩
  · exact hlt
  · have hnil := herror []
    rw [List.append_nil, h] at hnil
    nomatch hnil
  · have hnil := hframe []
    rw [List.append_nil, h] at hnil
    obtain ⟨m, -, heq⟩ := bind_eq_ok.mp hnil.symm
    nomatch heq

/-! ## Encoded messages -/

theorem encode_eq_ok {m : Message} {b : Bytes} (h : m.encode = .ok b) :
    ∃ body, m.body = .ok body ∧ headerLen + body.length ≤ maxMsgLen ∧ b = frame m.ty body := by
  cases hbody : m.body with
  | error e =>
    rw [Message.encode, hbody] at h
    nomatch h
  | ok body =>
    rw [Message.encode, hbody] at h
    change (if maxMsgLen < headerLen + body.length then _ else _) = _ at h
    split at h
    · nomatch h
    · exact ⟨body, rfl, by omega, (Except.ok.inj h).symm⟩

theorem length_frame_eq (ty : UInt8) (body : Bytes) :
    (frame ty body).length = headerLen + body.length := by
  simp only [frame, List.length_append, List.length_replicate, length_u16be, List.length_cons,
    headerLen]
  omega

theorem frameLen_frame {body : Bytes} (h : headerLen + body.length ≤ maxMsgLen) (ty : UInt8)
    (more : Bytes) : frameLen (frame ty body ++ more) = headerLen + body.length := by
  have hlt : headerLen + body.length < 65536 := lt_of_le_of_lt h (by decide)
  rw [frameLen, frame, List.append_assoc, List.append_assoc,
    field_append_of_length_le (by rw [List.length_replicate]), List.length_replicate, Nat.sub_self,
    field_zero_append (length_u16be _), u16be, readBE_beBytes,
    UInt16.toNat_ofNat_of_lt' hlt]
  exact Nat.mod_eq_of_lt hlt

theorem take_frame (ty : UInt8) (body more : Bytes) :
    (frame ty body ++ more).take 16 = List.replicate 16 0xff := by
  rw [frame, List.append_assoc, List.append_assoc, List.take_left' (List.length_replicate)]

theorem nextFrame_frame {ty : UInt8} {body : Bytes} (h : headerLen + body.length ≤ maxMsgLen)
    (more : Bytes) : nextFrame (frame ty body ++ more) =
      (decode (frame ty body) >>= fun m => .ok (some (m, more))) := by
  have hlen := length_frame_eq ty body
  have hle : headerLen ≤ (frame ty body ++ more).length := by
    rw [List.length_append, hlen]
    omega
  rw [nextFrame_eq hle, frameLen_frame h, take_frame, ensure_bind_of (by decide),
    ensure_bind_of ⟨by omega, h⟩, if_neg (by rw [List.length_append, hlen]; omega), ← hlen,
    List.take_left, List.drop_left]

theorem feedAll_congr {chunks chunks' : List Bytes} (hflat : chunks.flatten = chunks'.flatten) :
    (feedAll nextFrame [] chunks).items = (feedAll nextFrame [] chunks').items ∧
      (feedAll nextFrame [] chunks).outcome = (feedAll nextFrame [] chunks').outcome := by
  obtain ⟨hitems, houtcome, -⟩ := feedAll_eq_drain stable_nextFrame nextFrame_nil chunks
  obtain ⟨hitems', houtcome', -⟩ := feedAll_eq_drain stable_nextFrame nextFrame_nil chunks'
  rw [hflat] at hitems houtcome
  exact ⟨hitems.trans hitems'.symm, houtcome.trans houtcome'.symm⟩

theorem feedAll_encoded {ms : List Message} {bs chunks : List Bytes}
    (hdecode : List.Forall₂ (fun m b => m.encode = .ok b ∧ decode b = .ok m) ms bs)
    (hflat : chunks.flatten = bs.flatten) : feedAll nextFrame [] chunks = ⟨ms, .ok (), []⟩ := by
  have hread : List.Forall₂ (fun m b => ∀ more, nextFrame (b ++ more) = .ok (some (m, more)))
      ms bs := by
    refine hdecode.imp fun m b ⟨hencode, hback⟩ more => ?_
    obtain ⟨body, -, hle, rfl⟩ := encode_eq_ok hencode
    rw [nextFrame_frame hle, hback, ok_bind]
  have hdrain := drain_encoded stable_nextFrame nextFrame_nil hread
  obtain ⟨hitems, houtcome, hrest⟩ := feedAll_eq_drain stable_nextFrame nextFrame_nil chunks
  rw [List.nil_append, hflat, hdrain] at hitems houtcome hrest
  exact Run.ext hitems houtcome (hrest houtcome)

/-- The stream of messages does not depend on how it is cut, the messages that decode back to
themselves are read back from their encodings, and less than one message stays in the buffer. -/
theorem feed_stream :
    (∀ chunks chunks' : List Bytes, chunks.flatten = chunks'.flatten →
      (FrameReader.feedChunks {} chunks).2 = (FrameReader.feedChunks {} chunks').2) ∧
    (∀ (ms : List Message) (bs chunks : List Bytes),
      List.Forall₂ (fun m b => m.encode = .ok b ∧ decode b = .ok m) ms bs →
        chunks.flatten = bs.flatten → FrameReader.feedChunks {} chunks = ({}, ms, .ok ())) ∧
    ∀ (r : FrameReader) (data : Bytes), (r.feed data).2.2 = .ok () →
      (r.feed data).1.buf.length < 4096 := by
  refine ⟨fun chunks chunks' hflat => ?_, fun ms bs chunks hdecode hflat => ?_,
    fun r data hok => ?_⟩
  · obtain ⟨hitems, houtcome⟩ := feedAll_congr hflat
    rw [FrameReader.feedChunks_eq, FrameReader.feedChunks_eq]
    exact Prod.ext hitems houtcome
  · rw [FrameReader.feedChunks_eq, feedAll_encoded hdecode hflat]
  · exact length_lt_of_wait (next_rest_drain stable_nextFrame hok)

/-! ## Panics -/

/-- A frame that the decoder panics on is complete at the front of the buffer. -/
def PanicsAt (buf : Bytes) : Prop :=
  frameLen buf ≤ maxMsgLen ∧ frameLen buf ≤ buf.length ∧ PanicFrame (buf.take (frameLen buf))

theorem nextFrame_eq_panics_iff {buf : Bytes} : nextFrame buf = .panics ↔ PanicsAt buf := by
  by_cases hlen : headerLen ≤ buf.length
  swap
  · rw [nextFrame, if_pos (by omega)]
    refine iff_of_false (nomatch ·) ?_
    rintro ⟨-, -, ⟨hle, -⟩, -⟩
    rw [List.length_take] at hle
    omega
  rw [nextFrame_eq hlen, ensure_bind_eq_panics, ensure_bind_eq_panics, PanicsAt,
    ← decode_eq_panics_iff]
  constructor
  · rintro ⟨-, ⟨-, hmax⟩, hpanics⟩
    split at hpanics
    · nomatch hpanics
    · exact ⟨hmax, by omega, bind_ok_eq_panics.mp hpanics⟩
  · rintro ⟨hmax, hfull, hpanics⟩
    obtain ⟨⟨hmin, hmarker, -⟩, -⟩ := decode_eq_panics_iff.mp hpanics
    rw [List.length_take_of_le hfull] at hmin
    have h16 : 16 ≤ frameLen buf := le_trans (by decide) hmin
    rw [List.take_take, min_eq_left h16] at hmarker
    exact ⟨hmarker, ⟨hmin, hmax⟩, by rw [if_neg (by omega)]; exact bind_ok_eq_panics.mpr hpanics⟩

/-- The decoder panics on the frames with an overlong prefix, and the reader of a stream on those
that it comes by. -/
theorem decode_feed_ne_panics_iff (buf : Bytes) (chunks : List Bytes) :
    (decode buf ≠ .panics ↔ ¬ PanicFrame buf) ∧
    ((FrameReader.feedChunks {} chunks).2.2 ≠ .panics ↔
      ∀ rest, Reaches nextFrame chunks.flatten rest → ¬ PanicsAt rest) := by
  refine ⟨not_congr decode_eq_panics_iff, ?_⟩
  obtain ⟨-, houtcome, -⟩ := feedAll_eq_drain stable_nextFrame nextFrame_nil chunks
  rw [FrameReader.feedChunks_eq, houtcome, List.nil_append, Ne, drain_panics_iff stable_nextFrame,
    not_exists]
  refine forall_congr' fun rest => ?_
  rw [not_and, nextFrame_eq_panics_iff]

/-- An UPDATE that withdraws a prefix of 136 bits. -/
def overlongUpdate : Bytes := frame typeUpdate (u16be 18 ++ 136 :: List.replicate 17 0 ++ u16be 0)

theorem overlongUpdate_panics : decode overlongUpdate = .panics ∧
    (FrameReader.feedChunks {} [overlongUpdate]).2.2 = .panics := by
  decide

end Rill.Bgp
