import Rill.DerpHub
import Rill.FramedReader

/-!
# The readers of the ts2021 client

`DerpClient::recv` in `rill-ts2021/src/derp.rs` and `MapStream::next_netmap` in
`rill-ts2021/src/ts2021.rs` read a head and a body into buffers of their own. The data plane calls
the first under a timeout and the control task polls the second beside other branches, so either is
dropped wherever it waits, and what its buffers hold of a frame is then lost.
-/

namespace Rill
open FramedReader

/-- The length a head announces, unless it is too large. -/
def announced (max len : ℕ) : Option ℕ := if max < len then none else some len

theorem announced_eq_some {max len n : ℕ} (h : announced max len = some n) : n = len := by
  rw [announced] at h
  split_ifs at h
  exact (Option.some.inj h).symm

theorem readBE_beBytes_four {n : ℕ} (h : n < 2 ^ 32) : readBE (beBytes 4 n) = n := by
  rw [readBE_beBytes]
  exact Nat.mod_eq_of_lt h

namespace Derp

def maxFrame : ℕ := 1024 * 1024

/-- A frame as `write_frame` of the other side has it. -/
structure Frame where
  kind : UInt8
  payload : Bytes
  fits : payload.length < 2 ^ 32

structure ReceivedPacket where
  source : Key32
  data : Bytes
deriving DecidableEq

/-- `recv` on a whole frame. A ping is answered and passed by, as is every other frame. -/
def recvFrame (kind : UInt8) (payload : Bytes) : Verdict ReceivedPacket :=
  if kind = frameRecvPacket then
    match Ts2021.toKey32 (payload.take 32) with
    | none => .fail
    | some source => .result ⟨source, payload.drop 32⟩
  else .skip

def Frame.packet (f : Frame) : Option ReceivedPacket :=
  if f.kind = frameRecvPacket ∧ f.payload.length ≤ maxFrame then
    (Ts2021.toKey32 (f.payload.take 32)).map fun source => ⟨source, f.payload.drop 32⟩
  else none

/-- `read_frame` and `recv`. -/
def recvFraming : Framing UInt8 Frame ReceivedPacket where
  headLen := 5
  head f := f.kind :: beBytes 4 f.payload.length
  body := Frame.payload
  bodyLen hdr := announced maxFrame (readBE (hdr.drop 1))
  finish hdr payload := recvFrame (hdr.headD 0) payload
  headLen_pos := by decide
  length_head f := by rw [List.length_cons, length_beBytes]
  bodyLen_head f n h := by
    rw [List.drop_succ_cons, List.drop_zero, readBE_beBytes_four f.fits] at h
    exact announced_eq_some h

theorem recvFraming_bodyLen (f : Frame) :
    recvFraming.bodyLen (recvFraming.head f) = announced maxFrame f.payload.length := by
  simp only [recvFraming, List.drop_succ_cons, List.drop_zero, readBE_beBytes_four f.fits]

theorem recvFraming_value : recvFraming.value = Frame.packet := by
  funext f
  rw [Framing.value, Framing.verdict, recvFraming_bodyLen, announced, Frame.packet]
  by_cases hlen : maxFrame < f.payload.length
  · rw [if_pos hlen, if_neg fun h => by omega]
    rfl
  · rw [if_neg hlen]
    change (recvFrame f.kind f.payload).toOption = _
    rw [recvFrame]
    by_cases hkind : f.kind = frameRecvPacket
    · rw [if_pos hkind, if_pos ⟨hkind, by omega⟩]
      cases Ts2021.toKey32 (f.payload.take 32) <;> rfl
    · rw [if_neg hkind, if_neg fun h => hkind h.1]
      rfl

end Derp

namespace Ts2021

def maxMapFrame : ℕ := 1024 * 1024

structure MapResponse (Node Peer Patch DerpMap : Type) where
  node : Option Node
  peers : Option (List Peer)
  peersChanged : Option (List Peer)
  peersRemoved : Option (List Int64)
  peersChangedPatch : Option (List Patch)
  derpMap : Option DerpMap
deriving DecidableEq

/-- A frame of a map response. -/
structure MapRecord where
  json : Bytes
  fits : json.length < 2 ^ 32

section
variable {Node Peer Patch DerpMap : Type}

def MapResponse.hasNetmapData (map : MapResponse Node Peer Patch DerpMap) : Bool :=
  map.node.isSome || map.peersChanged.any (!·.isEmpty) || map.peersRemoved.any (!·.isEmpty) ||
    map.peersChangedPatch.any (!·.isEmpty)

variable (parse : Bytes → Option (MapResponse Node Peer Patch DerpMap))

/-- `next_netmap` on a whole frame. -/
def nextFrame (json : Bytes) : Verdict (MapResponse Node Peer Patch DerpMap) :=
  match parse json with
  | none => .fail
  | some map => if map.hasNetmapData then .result map else .skip

def MapRecord.netmap (w : MapRecord) : Option (MapResponse Node Peer Patch DerpMap) :=
  if w.json.length ≤ maxMapFrame then (parse w.json).filter MapResponse.hasNetmapData else none

def mapFraming : Framing UInt8 MapRecord (MapResponse Node Peer Patch DerpMap) where
  headLen := 4
  head w := leBytes 4 w.json.length
  body := MapRecord.json
  bodyLen lenBuf := announced maxMapFrame (readLE lenBuf)
  finish _ json := nextFrame parse json
  headLen_pos := by decide
  length_head w := by rw [leBytes, List.length_reverse, length_beBytes]
  bodyLen_head w n h := by
    rw [leBytes, readLE, List.reverse_reverse, readBE_beBytes_four w.fits] at h
    exact announced_eq_some h

theorem mapFraming_bodyLen (w : MapRecord) :
    (mapFraming parse).bodyLen ((mapFraming parse).head w) =
      announced maxMapFrame w.json.length := by
  simp only [mapFraming, leBytes, readLE, List.reverse_reverse, readBE_beBytes_four w.fits]

theorem mapFraming_value : (mapFraming parse).value = MapRecord.netmap parse := by
  funext w
  rw [Framing.value, Framing.verdict, mapFraming_bodyLen, announced, MapRecord.netmap]
  by_cases hlen : maxMapFrame < w.json.length
  · rw [if_pos hlen, if_neg (by omega)]
    rfl
  · rw [if_neg hlen, if_pos (by omega)]
    change (nextFrame parse w.json).toOption = _
    rw [nextFrame]
    cases parse w.json with
    | none => rfl
    | some map =>
      dsimp only
      rw [Option.filter_some]
      split_ifs <;> rfl

/-- Where no call is dropped within a frame, both readers return what was sent. -/
theorem readers_faithful_of_whole :
    (∀ (sent : List Derp.Frame) (as : List (Act UInt8)) (t : Reader UInt8 Derp.ReceivedPacket),
      as.flatMap Framing.arrives <+: sent.flatMap Derp.recvFraming.wire →
      Transition.Meets Derp.recvFraming.step Framing.Whole {} as →
      Transition.run Derp.recvFraming.step {} as = some t →
      Derp.recvFraming.Faithful Derp.Frame.packet sent as t) ∧
    ∀ (sent : List MapRecord) (as : List (Act UInt8))
      (t : Reader UInt8 (MapResponse Node Peer Patch DerpMap)),
      as.flatMap Framing.arrives <+: sent.flatMap (mapFraming parse).wire →
      Transition.Meets (mapFraming parse).step Framing.Whole {} as →
      Transition.run (mapFraming parse).step {} as = some t →
      (mapFraming parse).Faithful (MapRecord.netmap parse) sent as t := by
  constructor
  · intro sent as t hsent hw hr
    rw [← Derp.recvFraming_value]
    exact Framing.faithful_of_run hsent hw hr
  · intro sent as t hsent hw hr
    rw [← mapFraming_value]
    exact Framing.faithful_of_run hsent hw hr

end

section Lab

def labNext : Derp.Frame := ⟨Derp.frameRecvPacket, List.replicate 32 0 ++ [7], by simp⟩

/-- A packet whose source begins as the head of a keep-alive frame over the rest does. -/
def labLost : Derp.Frame :=
  ⟨Derp.frameRecvPacket, [0x06, 0, 0, 0, 28] ++ List.replicate 28 0, by simp⟩

/-- Calls are dropped before the first frame and between the two, and the second arrives in
pieces. -/
def labWhole : List (Act UInt8) :=
  [Act.cancel,
    .deliver (Derp.recvFraming.wire labNext ++ (Derp.recvFraming.wire labLost).take 3)] ++
  List.replicate 38 Act.read ++ [Act.cancel] ++ List.replicate 3 Act.read ++
  [Act.deliver ((Derp.recvFraming.wire labLost).drop 3)] ++ List.replicate 35 Act.read

/-- A document of one byte removes that peer, the empty one is a keep-alive. -/
def labParse (json : Bytes) : Option (MapResponse Unit Unit Unit Unit) :=
  some ⟨none, none, none, some (json.map (·.toUInt64.toInt64)), none, none⟩

def labRecords : List MapRecord := [⟨[5], by simp⟩, ⟨[], by simp⟩, ⟨[6], by simp⟩]

def labPolls : List (Act UInt8) :=
  [Act.deliver (labRecords.flatMap (mapFraming labParse).wire)] ++ List.replicate 5 Act.read ++
  [Act.cancel] ++ List.replicate 9 Act.read

theorem readers_faithful_of_whole_lab :
    (∃ t, Transition.run Derp.recvFraming.step {} labWhole = some t ∧ t.returned.length = 2 ∧
      Derp.recvFraming.Faithful Derp.Frame.packet [labNext, labLost] labWhole t) ∧
    ∃ t, Transition.run (mapFraming labParse).step {} labPolls = some t ∧ t.returned.length = 2 ∧
      (mapFraming labParse).Faithful (MapRecord.netmap labParse) labRecords labPolls t := by
  have hrun : (Transition.run Derp.recvFraming.step {} labWhole).any
      (·.returned.length = 2) = true := by decide
  have hpolls : (Transition.run (mapFraming labParse).step {} labPolls).any
      (·.returned.length = 2) = true := by decide
  obtain ⟨t, ht, hlen⟩ := (Option.any_eq_true _ _).mp hrun
  obtain ⟨u, hu, hulen⟩ := (Option.any_eq_true _ _).mp hpolls
  refine ⟨⟨t, ht, of_decide_eq_true hlen, ?_⟩, ⟨u, hu, of_decide_eq_true hulen, ?_⟩⟩
  · exact (readers_faithful_of_whole labParse).1 _ _ t (by decide +kernel) (by decide +kernel) ht
  · exact (readers_faithful_of_whole labParse).2 _ _ u (by decide) (by decide) hu

/-- The call is dropped after the head of the first frame. -/
def labDropped : List (Act UInt8) :=
  [Act.deliver ((Derp.recvFraming.wire labLost).take 5)] ++ List.replicate 5 Act.read ++
  [Act.cancel] ++
  [Act.deliver ((Derp.recvFraming.wire labLost).drop 5 ++ Derp.recvFraming.wire labNext)] ++
  List.replicate 71 Act.read

theorem dropped_packet_lost :
    labDropped.flatMap Framing.arrives = [labLost, labNext].flatMap Derp.recvFraming.wire ∧
      ∃ t, Transition.run Derp.recvFraming.step {} labDropped = some t ∧
        ¬ t.returned <+: [labLost, labNext].filterMap Derp.Frame.packet := by
  have hrun : (Transition.run Derp.recvFraming.step {} labDropped).any (fun t =>
      decide (¬ t.returned <+: [labLost, labNext].filterMap Derp.Frame.packet)) = true := by
    decide
  obtain ⟨t, ht, hlost⟩ := (Option.any_eq_true _ _).mp hrun
  exact ⟨by decide, t, ht, of_decide_eq_true hlost⟩

end Lab

end Ts2021

end Rill
