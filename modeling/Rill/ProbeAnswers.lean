import Rill.Incoming

/-!
# Answers to probes

An answer to a path probe is taken for the probe of its nonce. Whether it is an answer is read from
the payload, which no MAC covers; the flag, the path and the sender in the header are not compared
with the probe. So any node that may send to this one can answer for a path it is not on.
-/

namespace Rill

namespace MeshData
variable {σ : Type} {N : Snow σ} {C : Crypto}

/-- The frame is an answer, as the handler reads it, to the pending probe of a path to a node. -/
def ReadsAnswer (d : MeshData σ) (frame : Bytes) (header : MeshFrameHeader) (dest : UInt32)
    (pathId : UInt64) : Prop :=
  header.packetType = PacketType.pathProbe ∧
    ∃ payload p sent, framePayload frame = some payload ∧
      PathProbePayload.decode payload = some p ∧ p.response = true ∧
      d.pathProbePending[p.nonce]? = some (dest, pathId, sent)

def AnswersProbe (C : Crypto) (d : MeshData σ) (frame : Bytes) (header : MeshFrameHeader)
    (dest : UInt32) (pathId : UInt64) : Prop :=
  MeshFrameHeader.decode frame = .ok header ∧ d.Addressed C header ∧
    d.ReadsAnswer frame header dest pathId

/-- The header says that the frame answers a probe of the path, and comes from its end. -/
def FitsProbe (header : MeshFrameHeader) (dest : UInt32) (pathId : UInt64) : Prop :=
  header.flags &&& pathProbeFlagResponse ≠ 0 ∧ header.pathId = pathId ∧ header.fromNodeId = dest

/-- The misses in a row that are counted against a path. -/
def misses (d : MeshData σ) (pathId : UInt64) : UInt32 := d.pathHealth[pathId]?.getD 0

/-- The node when a received frame goes to its handler. -/
def received (C : Crypto) (d : MeshData σ) (frame : Bytes) (env : CallEnv) : MeshData σ :=
  match d.relay C frame env with
  | (.delivered source, d, _) => d.noteIngress source env
  | (.flooded source, d, _) => d.noteIngress source env
  | (_, d, _) => d

def MissesLe (health health' : Table UInt64 UInt32) : Prop :=
  ∀ pathId : UInt64, health[pathId]?.getD 0 ≤ health'[pathId]?.getD 0

/-- The handler tells nothing good of a path: no round trip, and no path has fewer misses. -/
structure Silent (d : MeshData σ) (r : Handled σ) : Prop where
  no_rtt : ∀ dest pathId rtt, r.event ≠ .pathProbeRtt dest pathId rtt
  misses_le : MissesLe d.pathHealth r.node.pathHealth

/-- The handler tells of one path, to one node, that it is alive. -/
structure Tells (d : MeshData σ) (r : Handled σ) (dest : UInt32) (pathId : UInt64) : Prop where
  rtt : ∃ rtt, r.event = .pathProbeRtt dest pathId rtt
  others : ∀ q ≠ pathId, r.node.misses q = d.misses q

theorem silent_of_eq {d : MeshData σ} {r : Handled σ}
    (hrtt : ∀ dest pathId rtt, r.event ≠ .pathProbeRtt dest pathId rtt)
    (hhealth : r.node.pathHealth = d.pathHealth) : Silent d r := by
  refine ⟨hrtt, fun pathId => ?_⟩
  rw [hhealth]
  exact UInt32.le_refl _

theorem le_saturatingSucc32 (x : UInt32) : x ≤ saturatingSucc32 x := by
  unfold saturatingSucc32
  split_ifs with hmax
  · exact UInt32.le_refl _
  · have hne : x.toNat ≠ 4294967295 := fun h => hmax (UInt32.toNat_inj.mp h)
    have hbound := x.toNat_lt
    rw [UInt32.le_iff_toNat_le, UInt32.toNat_add, UInt32.toNat_one, Nat.mod_eq_of_lt (by omega)]
    exact Nat.le_succ _

theorem missesLe_pathMissOf (d : MeshData σ) (path : Option UInt64) :
    MissesLe d.pathHealth (d.pathMissOf path).pathHealth := by
  intro pathId
  cases path with
  | none => exact UInt32.le_refl _
  | some q =>
    simp only [pathMissOf, pathMiss, Table.getElem?_insert]
    split_ifs with hq
    · subst hq
      exact le_saturatingSucc32 _
    · exact UInt32.le_refl _

theorem missesLe_of_sendFrame {d d' : MeshData σ} {peer : UInt32} {env : CallEnv} {ok : Bool}
    (h : d.sendFrame peer env = (ok, d')) : MissesLe d.pathHealth d'.pathHealth := by
  obtain ⟨sentPath, hpick⟩ := d.pickPath_eq peer 0 env.nowUnix
  rw [sendFrame, hpick] at h
  unfold sendToNodeHop at h
  intro pathId
  split at h
  · cases h
    exact UInt32.le_refl _
  · cases h
    have hfirst := missesLe_pathMissOf { d with lastSentPath := sentPath }
      ((d.pathTable[peer]?.getD []).head?.map PathEntry.pathId) pathId
    exact UInt32.le_trans hfirst (missesLe_pathMissOf _ _ pathId)
  · cases h
    exact UInt32.le_refl _

theorem missesLe_of_sendResponse {d d' : MeshData σ} {peer : UInt32} {payload : Bytes}
    {env : CallEnv} {frame : Option Bytes} (h : d.sendResponse C peer payload env = (frame, d')) :
    MissesLe d.pathHealth d'.pathHealth := by
  unfold sendResponse at h
  split at h
  · cases h
    exact fun _ => UInt32.le_refl _
  · cases h
    exact missesLe_of_sendFrame rfl

theorem handleHandshake_silent (d : MeshData σ) (source : UInt32) (payload : Bytes) (env : CallEnv) :
    Silent d (d.handleHandshake N C source payload env) := by
  unfold handleHandshake handleMsg1 handleMsg2 handleMsg3
  dsimp only
  repeat' split
  all_goals first
    | exact silent_of_eq (by simp) rfl
    | rename_i hsend
      first
        | have hle := missesLe_of_sendResponse hsend
          exact ⟨by simp, hle⟩
        | have hle := missesLe_of_sendFrame hsend
          exact ⟨by simp, hle⟩

theorem handleSessionFrame_silent (d : MeshData σ) (source : UInt32) (frame : Bytes)
    (heartbeat : Bool) (env : CallEnv) :
    Silent d { event := (d.handleSessionFrame C source frame heartbeat env).1
               node := (d.handleSessionFrame C source frame heartbeat env).2 } := by
  unfold handleSessionFrame
  dsimp only
  repeat' split
  all_goals exact silent_of_eq (by simp) rfl

theorem handleBroadcastFrame_silent (d : MeshData σ) (source : UInt32) (frame : Bytes) :
    Silent d { event := (d.handleBroadcastFrame C source frame).1
               node := (d.handleBroadcastFrame C source frame).2 } := by
  unfold handleBroadcastFrame
  dsimp only
  repeat' split
  all_goals exact silent_of_eq (by simp) rfl

/-- An answer with a pending nonce tells of the path of its probe, and any other probe is silent. -/
theorem handlePathProbe_tells (d : MeshData σ) (header : MeshFrameHeader) (payload : Bytes)
    (env : CallEnv) :
    (∃ p dest pathId sent, PathProbePayload.decode payload = some p ∧ p.response = true ∧
      d.pathProbePending[p.nonce]? = some (dest, pathId, sent) ∧
      Tells d (d.handlePathProbe C header payload env) dest pathId) ∨
    (∀ p, PathProbePayload.decode payload = some p → p.response = true →
      d.pathProbePending[p.nonce]? = none) ∧ Silent d (d.handlePathProbe C header payload env) := by
  unfold handlePathProbe
  split
  · rename_i hp
    exact .inr ⟨by simp [hp], silent_of_eq (by simp) rfl⟩
  · rename_i p hp
    split
    · rename_i hresponse
      split
      · rename_i hpending
        refine .inr ⟨fun q hq _ => ?_, silent_of_eq (by simp) rfl⟩
        rw [hp] at hq
        rwa [← Option.some.inj hq]
      · rename_i dest pathId sent hpending
        refine .inl ⟨p, dest, pathId, sent, hp, hresponse, hpending, ⟨_, rfl⟩, fun q hq => ?_⟩
        simp only [misses, pathOk, Table.getElem?_insert, if_neg (Ne.symm hq)]
    · rename_i hresponse
      have hnone : ∀ q, PathProbePayload.decode payload = some q → q.response = true →
          d.pathProbePending[q.nonce]? = none := by
        intro q hq htrue
        rw [hp] at hq
        exact absurd (Option.some.inj hq ▸ htrue) hresponse
      refine .inr ⟨hnone, ?_⟩
      dsimp only
      repeat' split
      all_goals exact silent_of_eq (by simp) rfl

theorem dispatchDelivered_tells {d : MeshData σ} {frame : Bytes} {header : MeshFrameHeader}
    (hd : MeshFrameHeader.decode frame = .ok header) (source : UInt32) (env : CallEnv) :
    (∃ dest pathId, d.ReadsAnswer frame header dest pathId ∧
      Tells d (d.dispatchDelivered N C source frame env) dest pathId) ∨
    (∀ dest pathId, ¬ d.ReadsAnswer frame header dest pathId) ∧
      Silent d (d.dispatchDelivered N C source frame env) := by
  by_cases htype : header.packetType = PacketType.pathProbe
  · rw [d.dispatchDelivered_probe hd htype]
    cases hpayload : framePayload frame with
    | none =>
      refine .inr ⟨?_, silent_of_eq (by simp) rfl⟩
      rintro dest pathId ⟨-, payload, -, -, hsome, -⟩
      rw [hpayload] at hsome
      cases hsome
    | some payload =>
      rcases d.handlePathProbe_tells (C := C) header payload env with
        ⟨p, dest, pathId, sent, hp, hresponse, hpending, htells⟩ | ⟨hnone, hsilent⟩
      · exact .inl ⟨dest, pathId, ⟨htype, payload, p, sent, hpayload, hp, hresponse, hpending⟩, htells⟩
      · refine .inr ⟨?_, hsilent⟩
        rintro dest pathId ⟨-, payload', p, sent, hsome, hp, hresponse, hpending⟩
        cases hpayload.symm.trans hsome
        rw [hnone p hp hresponse] at hpending
        cases hpending
  · refine .inr ⟨fun dest pathId h => htype h.1, ?_⟩
    simp only [dispatchDelivered, hd, if_neg htype]
    split_ifs
    · split
      · exact d.handleHandshake_silent source _ env
      · exact silent_of_eq (by simp) rfl
    · exact d.handleSessionFrame_silent source frame false env
    · exact d.handleSessionFrame_silent source frame true env
    · exact d.handleBroadcastFrame_silent source frame
    · exact silent_of_eq (by simp) rfl

/-- What a node tells of a path comes from an answer that is addressed to it. -/
theorem handleFrame_tells (d : MeshData σ) (frame : Bytes) (env : CallEnv) :
    (∃ header dest pathId, d.AnswersProbe C frame header dest pathId ∧
      Tells (d.received C frame env) (d.handleFrame N C frame env) dest pathId) ∨
    (∀ header dest pathId, ¬ d.AnswersProbe C frame header dest pathId) ∧
      Silent (d.received C frame env) (d.handleFrame N C frame env) := by
  obtain ⟨outcome, seen, frame', heq, hdelivered, hflooded⟩ := d.relay_spec (C := C) frame env
  -- An answer is a frame that is delivered.
  have hrelay : ∀ header dest pathId, d.AnswersProbe C frame header dest pathId →
      outcome = .delivered header.fromNodeId := by
    rintro header dest pathId ⟨hd, haddressed, -⟩
    rw [relay_of_addressed hd haddressed] at heq
    exact (Prod.mk.inj heq).1.symm
  rw [handleFrame, received, heq]
  cases outcome with
  | delivered source =>
    obtain ⟨rfl, header, hd, haddressed, rfl⟩ := hdelivered source rfl
    obtain ⟨hop, health, hingress⟩ :=
      noteIngress_eq { d with floodSeen := seen } header.fromNodeId env
    have hpending := congrArg MeshData.pathProbePending hingress
    dsimp only at hpending ⊢
    rcases dispatchDelivered_tells (N := N) (C := C) hd header.fromNodeId env with
      ⟨dest, pathId, ⟨htype, hread⟩, htells⟩ | ⟨hnone, hsilent⟩
    · rw [hpending] at hread
      exact .inl ⟨header, dest, pathId, ⟨hd, haddressed, htype, hread⟩, htells⟩
    · refine .inr ⟨?_, hsilent⟩
      rintro header' dest pathId ⟨hd', -, htype, hread⟩
      cases hd.symm.trans hd'
      exact hnone dest pathId ⟨htype, by rwa [hpending]⟩
  | flooded source =>
    obtain ⟨header, hd, htype⟩ := hflooded source rfl
    rcases dispatchDelivered_tells (N := N) (C := C) hd source env with
      ⟨dest, pathId, hread, -⟩ | ⟨-, hsilent⟩
    · exact absurd (htype.symm.trans hread.1) (by decide)
    · exact .inr ⟨fun header dest pathId h => by simpa using hrelay header dest pathId h, hsilent⟩
  | forwarded dest next =>
    exact .inr ⟨fun header dest pathId h => by simpa using hrelay header dest pathId h,
      silent_of_eq (by simp) rfl⟩
  | dropped reason =>
    exact .inr ⟨fun header dest pathId h => by simpa using hrelay header dest pathId h,
      silent_of_eq (by simp) rfl⟩

/-- An answer with a fitting header is for this node, and its probe is pending. -/
def Vouched (C : Crypto) (d : MeshData σ) (frame : Bytes) (dest : UInt32) (pathId : UInt64) : Prop :=
  ∃ (header : MeshFrameHeader) (nonce : UInt32) (sent : ℕ),
    MeshFrameHeader.decode frame = .ok header ∧ d.Addressed C header ∧
    FitsProbe header dest pathId ∧ d.pathProbePending[nonce]? = some (dest, pathId, sent)

/-- A round trip is reported, and a path has fewer misses after its handler, only where the header
vouches for it, if and only if the answers that are taken for pending probes have headers that fit
the probes. -/
theorem probe_reports_sound_iff (d : MeshData σ) (frame : Bytes) (env : CallEnv) :
    ((∀ dest pathId rtt, (d.handleFrame N C frame env).event = .pathProbeRtt dest pathId rtt →
        d.Vouched C frame dest pathId) ∧
      ∀ pathId, (d.handleFrame N C frame env).node.misses pathId <
          (d.received C frame env).misses pathId → ∃ dest, d.Vouched C frame dest pathId) ↔
      ∀ header dest pathId, d.AnswersProbe C frame header dest pathId →
        FitsProbe header dest pathId := by
  rcases d.handleFrame_tells (N := N) (C := C) frame env with
    ⟨header, dest, pathId, hanswer, ⟨rtt, hevent⟩, hothers⟩ | ⟨hnone, hrtt, hmisses⟩
  · obtain ⟨hd, haddressed, htype, payload, p, sent, hpayload, hp, hresponse, hpending⟩ := id hanswer
    constructor
    · rintro ⟨h, -⟩ header' dest' pathId' ⟨hd', -, -, payload', p', sent', hpayload', hp', -, hpending'⟩
      obtain ⟨header'', -, -, hd'', -, hfits, -⟩ := h dest pathId rtt hevent
      cases hd'.symm.trans hd''
      cases hpayload.symm.trans hpayload'
      cases hp.symm.trans hp'
      obtain ⟨rfl, hrest⟩ := Prod.mk.inj (Option.some.inj (hpending.symm.trans hpending'))
      cases hrest
      exact hfits
    · intro h
      have hvouched : d.Vouched C frame dest pathId :=
        ⟨header, p.nonce, sent, hd, haddressed, h header dest pathId hanswer, hpending⟩
      constructor
      · intro dest' pathId' rtt' hevent'
        obtain ⟨rfl, rfl, -⟩ := IncomingEvent.pathProbeRtt.inj (hevent.symm.trans hevent')
        exact hvouched
      · intro q hless
        by_cases hq : q = pathId
        · exact ⟨dest, hq ▸ hvouched⟩
        · rw [hothers q hq] at hless
          exact absurd hless (UInt32.lt_irrefl _)
  · refine iff_of_true ⟨fun dest pathId rtt h => absurd h (hrtt dest pathId rtt), fun q hless => ?_⟩
      fun header dest pathId h => absurd h (hnone header dest pathId)
    exact absurd (hmisses q) (UInt32.not_le.mpr hless)

section Example

/-- Node 2 waits for an answer of node 3 over path 7, which has been dead. -/
def labProber : MeshData ClearState where
  selfNodeId := 2
  keyDstTable := (∅ : Table UInt32 Bytes).insert 2 [9]
  keyPathTable := (∅ : Table UInt64 Bytes).insert 7 [8]
  pathHealth := (∅ : Table UInt64 UInt32).insert 7 3
  pathProbePending := (∅ : Table UInt32 (UInt32 × UInt64 × ℕ)).insert 5 (3, 7, 0)

/-- An answer that node 4 sends on the default path, with no flag in its header. -/
def labForgedAnswer : Bytes :=
  (Crypto.clear 100).buildUnsealedFrame
    { packetType := PacketType.pathProbe, toNodeId := 2, fromNodeId := 4 } [9]
    (PathProbePayload.encode ⟨5, 0, true⟩)

/-- The answer brings the path to life, although its sender is not on it. -/
theorem lab_forged_answer_reported :
    (labProber.handleFrame Snow.clear (Crypto.clear 100) labForgedAnswer {}).event =
        .pathProbeRtt 3 7 0 ∧
      (labProber.handleFrame Snow.clear (Crypto.clear 100) labForgedAnswer
        {}).node.pathHealth[(7 : UInt64)]? = some 0 ∧
      ∀ header, MeshFrameHeader.decode labForgedAnswer = .ok header → ¬ FitsProbe header 3 7 := by
  refine ⟨by decide +kernel, by decide +kernel, fun header hd hfits => ?_⟩
  cases (MeshFrameHeader.decode_encode_append _ _).symm.trans hd
  exact absurd hfits.2.2 (by decide)

end Example

end MeshData

end Rill
