import Rill.MeshCalls
import Rill.MeshVerdicts
import Rill.SessionOrigin

/-!
# What the calls leave alone

Two parts of the data plane are followed through every call: the sessions, and the broadcast key
with the broadcasts that have been seen. A session appears only with the event that reports it, and
what holds of a new session and is kept by everything that is done to a session holds of all. The
broadcasts change only with a broadcast or a new key.
-/

namespace Rill

/-- A property that a session has from the start and keeps. -/
structure Session.Invariant (P : Session → Prop) : Prop where
  new : ∀ peer keys, P (Session.new peer keys)
  nextSeq : ∀ s, P s → P s.nextSeq.2
  rekey : ∀ (C : Crypto) s now, P s → P (s.rekey C now)
  openWith : ∀ {α : Type} (tryKey : Bytes → Except FrameOpenError (MeshFrameHeader × α)) s now,
    P s → P (s.openWith tryKey now).2

namespace MeshData
variable {σ : Type} {N : Snow σ} {C : Crypto} {d : MeshData σ} {env : CallEnv}

def SessionsAll (P : Session → Prop) (d : MeshData σ) : Prop :=
  ∀ (peer : UInt32) s, d.sessions[peer]? = some s → P s

/-- Every invariant of sessions is kept. -/
def KeepsSessions (d d' : MeshData σ) : Prop :=
  ∀ P, Session.Invariant P → d.SessionsAll P → d'.SessionsAll P

theorem KeepsSessions.refl (d : MeshData σ) : KeepsSessions d d := fun _ _ h => h

theorem KeepsSessions.trans {d d' d'' : MeshData σ} (h : KeepsSessions d d')
    (h' : KeepsSessions d' d'') : KeepsSessions d d'' :=
  fun P hP hd => h' P hP (h P hP hd)

theorem KeepsSessions.of_sessions {d' : MeshData σ} (h : d'.sessions = d.sessions) :
    KeepsSessions d d' := by
  intro P _ hd peer s hs
  rw [h] at hs
  exact hd peer s hs

theorem KeepsSessions.of_insert {d' : MeshData σ} {peer : UInt32} {s : Session}
    (h : d'.sessions = d.sessions.insert peer s)
    (hs : ∀ P, Session.Invariant P → d.SessionsAll P → P s) : KeepsSessions d d' := by
  intro P hP hd other s' hs'
  rw [h, Table.getElem?_insert] at hs'
  split_ifs at hs' with hpeer
  · exact Option.some.inj hs' ▸ hs P hP hd
  · exact hd other s' hs'

def hasSession (d : MeshData σ) (peer : UInt32) : Bool := (d.sessions[peer]?).isSome

/-- The key of the broadcasts, the windows of their senders, and the floods seen. -/
def broadcasts (d : MeshData σ) :
    Option Bytes × Table UInt32 ReplayWindow × Table (UInt32 × UInt32) ℕ :=
  (d.broadcastKey, d.broadcastReplay, d.floodSeen)

/-- The peers with a session after a call that reports an event. -/
def SessionsFollow (d : MeshData σ) (r : Handled σ) : Prop :=
  ∀ peer, r.node.hasSession peer = true ↔ d.hasSession peer = true ∨ r.event = .established peer

structure Quiet (d : MeshData σ) (r : Handled σ) : Prop where
  broadcasts : r.node.broadcasts = d.broadcasts
  not_broadcast : ∀ source payload, r.event ≠ .broadcast source payload
  sessions : SessionsFollow d r
  keeps : KeepsSessions d r.node

theorem sessionsFollow_of_eq {r : Handled σ} (hsessions : r.node.sessions = d.sessions)
    (hevent : ∀ peer, r.event ≠ .established peer) : SessionsFollow d r := by
  intro peer
  rw [hasSession, hsessions]
  exact (or_iff_left (hevent peer)).symm

theorem sessionsFollow_of_insert {r : Handled σ} {peer : UInt32} {s : Session}
    (hsessions : r.node.sessions = d.sessions.insert peer s) (hevent : r.event = .established peer) :
    SessionsFollow d r := by
  intro other
  rw [hasSession, hsessions, hevent, Table.getElem?_insert]
  split_ifs with h
  · simp [h]
  · have hne : (IncomingEvent.established peer) ≠ .established other := fun heq =>
      h (IncomingEvent.established.inj heq)
    rw [or_iff_left hne]
    rfl

theorem handleMsg1_quiet (d : MeshData σ) (source : UInt32) (payload : Bytes) (env : CallEnv) :
    Quiet d (d.handleMsg1 N C source payload env) := by
  have hevent : ∀ s p, (d.handleMsg1 N C source payload env).event ≠ .broadcast s p := by
    unfold handleMsg1
    dsimp only
    repeat' split
    all_goals simp
  obtain ⟨_, _, _, _, _, _, heq, hestablished, -⟩ := d.handleMsg1_spec (N := N) (C := C) source
    payload env
  rw [heq] at hevent ⊢
  exact ⟨rfl, hevent, sessionsFollow_of_eq rfl hestablished, .of_sessions rfl⟩

theorem handleMsg2_quiet (d : MeshData σ) (source : UInt32) (payload : Bytes) (env : CallEnv) :
    Quiet d (d.handleMsg2 N C source payload env) := by
  have hevent : ∀ s p, (d.handleMsg2 N C source payload env).event ≠ .broadcast s p := by
    unfold handleMsg2
    dsimp only
    repeat' split
    all_goals simp
  obtain ⟨_, _, _, _, _, _, heq, -, hsessions⟩ := d.handleMsg2_spec (N := N) (C := C) source
    payload env
  rw [heq] at hevent ⊢
  rcases hsessions with ⟨hnot, hsame⟩ | ⟨hest, _, _, _, _, -, -, -, hnew⟩
  · exact ⟨rfl, hevent, sessionsFollow_of_eq hsame hnot, .of_sessions hsame⟩
  · exact ⟨rfl, hevent, sessionsFollow_of_insert hnew hest,
      .of_insert hnew fun P hP _ => hP.new _ _⟩

theorem handleMsg3_quiet (d : MeshData σ) (source : UInt32) (payload : Bytes) :
    Quiet d (d.handleMsg3 N C source payload) := by
  have hevent : ∀ s p, (d.handleMsg3 N C source payload).event ≠ .broadcast s p := by
    unfold handleMsg3
    dsimp only
    repeat' split
    all_goals simp
  obtain ⟨_, _, _, _, heq, -, hsessions⟩ := d.handleMsg3_spec (N := N) (C := C) source payload
  rw [heq] at hevent ⊢
  rcases hsessions with ⟨hnot, hsame⟩ | ⟨hest, -, _, _, _, _, _, -, -, -, -, hnew⟩
  · exact ⟨rfl, hevent, sessionsFollow_of_eq hsame hnot, .of_sessions hsame⟩
  · exact ⟨rfl, hevent, sessionsFollow_of_insert hnew hest,
      .of_insert hnew fun P hP _ => hP.new _ _⟩

theorem handleHandshake_quiet (d : MeshData σ) (source : UInt32) (payload : Bytes) (env : CallEnv) :
    Quiet d (d.handleHandshake N C source payload env) := by
  unfold handleHandshake
  split
  · exact handleMsg1_quiet d source payload env
  · split
    · exact handleMsg2_quiet d source payload env
    · split
      · exact handleMsg3_quiet d source payload
      · exact ⟨rfl, by simp, sessionsFollow_of_eq rfl (by simp), .refl d⟩

theorem hasSession_insert {s s' : Session} {source : UInt32} (hs : d.sessions[source]? = some s)
    (peer : UInt32) :
    ((d.sessions.insert source s')[peer]?).isSome = (d.sessions[peer]?).isSome := by
  rw [Table.getElem?_insert]
  split_ifs with h
  · rw [← h, hs]
    rfl
  · rfl

theorem handleSessionFrame_quiet (d : MeshData σ) (source : UInt32) (frame : Bytes)
    (heartbeat : Bool) (env : CallEnv) :
    Quiet d { event := (d.handleSessionFrame C source frame heartbeat env).1
              node := (d.handleSessionFrame C source frame heartbeat env).2 } := by
  have hevent : ∀ s p, (d.handleSessionFrame C source frame heartbeat env).1 ≠ .broadcast s p := by
    unfold handleSessionFrame
    dsimp only
    repeat' split
    all_goals simp
  obtain ⟨_, _, _, heq, hestablished, hsessions, -⟩ := d.handleSessionFrame_spec (C := C) source
    frame heartbeat env
  rw [heq] at hevent ⊢
  rcases hsessions with rfl | ⟨s, _, hs, rfl⟩
  · exact ⟨rfl, hevent, sessionsFollow_of_eq rfl hestablished, .of_sessions rfl⟩
  · refine ⟨rfl, hevent, fun peer => ?_, .of_insert rfl fun P hP hd => ?_⟩
    · rw [or_iff_left (hestablished peer)]
      exact Eq.to_iff (congrArg (· = true) (hasSession_insert hs peer))
    · exact hP.openWith _ s env.now (hd source s hs)

theorem handlePathProbe_quiet (d : MeshData σ) (header : MeshFrameHeader) (payload : Bytes)
    (env : CallEnv) : Quiet d (d.handlePathProbe C header payload env) := by
  have huninvolved := d.handlePathProbe_uninvolved (C := C) header payload env
  refine ⟨?_, ?_, sessionsFollow_of_eq huninvolved.same.sessions huninvolved.not_established,
    .of_sessions huninvolved.same.sessions⟩
  · unfold handlePathProbe
    dsimp only
    repeat' split
    all_goals rfl
  · unfold handlePathProbe
    dsimp only
    repeat' split
    all_goals simp

theorem dispatchDelivered_quiet {header : MeshFrameHeader} {frame : Bytes} (d : MeshData σ)
    (source : UInt32) (env : CallEnv) (hd : MeshFrameHeader.decode frame = .ok header)
    (htype : header.packetType ≠ PacketType.broadcast) :
    Quiet d (d.dispatchDelivered N C source frame env) := by
  have hdropped : ∀ reason, Quiet d { event := .dropped reason, node := d } := fun reason =>
    ⟨rfl, by simp, sessionsFollow_of_eq rfl (by simp), .refl d⟩
  unfold dispatchDelivered
  simp only [hd, if_neg htype]
  split
  · split
    · exact handleHandshake_quiet d source _ env
    · exact hdropped _
  · split
    · exact handleSessionFrame_quiet d source frame false env
    · split
      · exact handleSessionFrame_quiet d source frame true env
      · split
        · split
          · exact handlePathProbe_quiet d header _ env
          · exact hdropped _
        · exact hdropped _

theorem broadcastAnswer_ne_established (d : MeshData σ) (source : UInt32) (frame : Bytes)
    (peer : UInt32) : (d.broadcastAnswer C source frame).1 ≠ .established peer := by
  unfold broadcastAnswer
  dsimp only
  repeat' split
  all_goals simp

theorem withFloods_hasSession (d : MeshData σ) (seen : Option (Table (UInt32 × UInt32) ℕ)) :
    (d.withFloods seen).hasSession = d.hasSession := by
  cases seen <;> rfl

theorem noteIngress_hasSession (d : MeshData σ) (source : UInt32) (env : CallEnv) :
    (d.noteIngress source env).hasSession = d.hasSession := by
  obtain ⟨_, _, heq⟩ := d.noteIngress_eq source env
  rw [heq]
  rfl

theorem noteIngress_keeps (d : MeshData σ) (source : UInt32) (env : CallEnv) :
    KeepsSessions d (d.noteIngress source env) := by
  obtain ⟨_, _, heq⟩ := d.noteIngress_eq source env
  rw [heq]
  exact .of_sessions rfl

theorem noteIngress_broadcasts (d : MeshData σ) (source : UInt32) (env : CallEnv) :
    (d.noteIngress source env).broadcasts = d.broadcasts := by
  obtain ⟨_, _, heq⟩ := d.noteIngress_eq source env
  rw [heq]
  rfl

theorem relayVerdict_of_decode_error {frame : Bytes} {e : DecodeError}
    (hd : MeshFrameHeader.decode frame = .error e) :
    d.relayVerdict C env frame = (.dropped .short, none, frame) := by
  simp only [relayVerdict, hd]

theorem handleFrame_event_of_not_received {frame : Bytes}
    (h : (d.relayVerdict C env frame).1.receivedFrom = none) :
    (∀ peer, (d.handleFrame N C frame env).event ≠ .established peer) ∧
      ∀ source payload, (d.handleFrame N C frame env).event ≠ .broadcast source payload := by
  rw [handleFrame, relay_eq]
  generalize (d.relayVerdict C env frame) = v at h ⊢
  obtain ⟨outcome, seen, frame'⟩ := v
  cases outcome with
  | forwarded dest => exact ⟨by simp, by simp⟩
  | delivered source => cases h
  | flooded source => cases h
  | dropped reason => exact ⟨by simp, by simp⟩

theorem decode_of_received {frame : Bytes} {source : UInt32}
    (h : (d.relayVerdict C env frame).1.receivedFrom = some source) :
    ∃ header, MeshFrameHeader.decode frame = .ok header := by
  cases hd : MeshFrameHeader.decode frame with
  | error e =>
    rw [relayVerdict_of_decode_error hd] at h
    nomatch h
  | ok header => exact ⟨header, rfl⟩

/-- A frame makes a session only when it reports one, and keeps the invariants of sessions. -/
theorem handleFrame_sessions (d : MeshData σ) (frame : Bytes) (env : CallEnv) :
    SessionsFollow d (d.handleFrame N C frame env) ∧
      KeepsSessions d (d.handleFrame N C frame env).node := by
  have hfloods : KeepsSessions d (d.withFloods (d.relayVerdict C env frame).2.1) := by
    cases (d.relayVerdict C env frame).2.1 <;> exact .of_sessions rfl
  cases hsource : (d.relayVerdict C env frame).1.receivedFrom with
  | none =>
    refine ⟨fun peer => ?_, ?_⟩
    · rw [handleFrame_of_not_received hsource, withFloods_hasSession,
        or_iff_left ((handleFrame_event_of_not_received hsource).1 peer)]
    · rw [handleFrame_of_not_received hsource]
      exact hfloods
  | some source =>
    obtain ⟨header, hd⟩ := decode_of_received hsource
    obtain ⟨rfl, hframe⟩ := relayVerdict_received hd hsource
    obtain ⟨ttl, hd'⟩ := decode_received hd hframe
    rw [handleFrame_of_received hsource]
    have hingress := noteIngress_keeps (d.withFloods (d.relayVerdict C env frame).2.1)
      header.fromNodeId env
    generalize hbase : (d.withFloods (d.relayVerdict C env frame).2.1).noteIngress
      header.fromNodeId env = base at hingress
    have hsame : base.hasSession = d.hasSession := by
      rw [← hbase, noteIngress_hasSession, withFloods_hasSession]
    have hfollow : SessionsFollow base (base.dispatchDelivered N C header.fromNodeId
        (d.relayVerdict C env frame).2.2 env) ∧ KeepsSessions base (base.dispatchDelivered N C
          header.fromNodeId (d.relayVerdict C env frame).2.2 env).node := by
      by_cases htype : header.packetType = PacketType.broadcast
      · rw [dispatchDelivered_broadcast base env hd' htype, handleBroadcastFrame_eq]
        exact ⟨sessionsFollow_of_eq rfl (base.broadcastAnswer_ne_established _ _), .of_sessions rfl⟩
      · have hquiet := dispatchDelivered_quiet (N := N) (C := C) base header.fromNodeId env hd' htype
        exact ⟨hquiet.sessions, hquiet.keeps⟩
    refine ⟨fun peer => ?_, (hfloods.trans hingress).trans hfollow.2⟩
    rw [hfollow.1 peer, hsame]

/-- How the handler of broadcasts moves the windows: it may leave them alone, or it marks the
number of the frame, and only a number that is new comes with a broadcast. -/
theorem broadcastAnswer_cases {frame : Bytes} {header : MeshFrameHeader} (d : MeshData σ)
    (source : UInt32) (hd : MeshFrameHeader.decode frame = .ok header) :
    ((d.broadcastAnswer C source frame).2 = d.broadcastReplay ∧
        ∀ s p, (d.broadcastAnswer C source frame).1 ≠ .broadcast s p) ∨
      ((d.broadcastAnswer C source frame).2 = d.broadcastReplay.insert source
          ((d.broadcastWindow source).checkAndMark header.seq).2 ∧
        ∀ s p, (d.broadcastAnswer C source frame).1 = .broadcast s p →
          s = source ∧ ((d.broadcastWindow source).checkAndMark header.seq).1 = true) := by
  unfold broadcastAnswer
  rcases Option.eq_none_or_eq_some d.broadcastKey with hk | ⟨bkey, hk⟩
  · simp only [hk]
    exact Or.inl ⟨trivial, by simp⟩
  · simp only [hk, hd]
    refine Or.inr ⟨rfl, fun s p hev => ?_⟩
    change (if !((d.broadcastWindow source).checkAndMark header.seq).1 then _ else _) = _ at hev
    cases hfresh : ((d.broadcastWindow source).checkAndMark header.seq).1 with
    | false =>
      rw [hfresh] at hev
      nomatch hev
    | true =>
      rw [hfresh] at hev
      revert hev
      rcases C.openFrameInPlace frame bkey bkey 0 with e | r
      · cases e <;> exact fun hev => nomatch hev
      · exact fun hev => ⟨(IncomingEvent.broadcast.inj hev).1.symm, rfl⟩

/-- What a frame does to the broadcasts. -/
theorem handleFrame_broadcasts (d : MeshData σ) (frame : Bytes) (env : CallEnv) :
    (d.handleFrame N C frame env).node.broadcastKey = d.broadcastKey ∧
      (d.handleFrame N C frame env).node.floodSeen =
        (d.withFloods (d.relayVerdict C env frame).2.1).floodSeen ∧
      ((d.handleFrame N C frame env).node.broadcastReplay = d.broadcastReplay ∧
          (∀ s p, (d.handleFrame N C frame env).event ≠ .broadcast s p) ∨
        ∃ header, MeshFrameHeader.decode frame = .ok header ∧
          (d.relayVerdict C env frame).1.receivedFrom = some header.fromNodeId ∧
          header.packetType = PacketType.broadcast ∧
          (d.handleFrame N C frame env).node.broadcastReplay =
            d.broadcastReplay.insert header.fromNodeId
              ((d.broadcastWindow header.fromNodeId).checkAndMark header.seq).2 ∧
          ∀ s p, (d.handleFrame N C frame env).event = .broadcast s p → s = header.fromNodeId ∧
            ((d.broadcastWindow header.fromNodeId).checkAndMark header.seq).1 = true) := by
  have hfloods : (d.withFloods (d.relayVerdict C env frame).2.1).broadcastKey = d.broadcastKey ∧
      (d.withFloods (d.relayVerdict C env frame).2.1).broadcastReplay = d.broadcastReplay := by
    cases (d.relayVerdict C env frame).2.1 <;> exact ⟨rfl, rfl⟩
  cases hsource : (d.relayVerdict C env frame).1.receivedFrom with
  | none =>
    rw [handleFrame_of_not_received hsource]
    exact ⟨hfloods.1, rfl, Or.inl ⟨hfloods.2, (handleFrame_event_of_not_received hsource).2⟩⟩
  | some source =>
    obtain ⟨header, hd⟩ := decode_of_received hsource
    obtain ⟨rfl, hframe⟩ := relayVerdict_received hd hsource
    obtain ⟨ttl, hd'⟩ := decode_received hd hframe
    rw [handleFrame_of_received hsource]
    have hbase := (d.withFloods (d.relayVerdict C env frame).2.1).noteIngress_broadcasts
      header.fromNodeId env
    generalize (d.withFloods (d.relayVerdict C env frame).2.1).noteIngress
      header.fromNodeId env = base at hbase ⊢
    simp only [broadcasts, Prod.mk.injEq] at hbase
    obtain ⟨hkey, hreplay, hseen⟩ := hbase
    have hwindow : base.broadcastWindow = d.broadcastWindow := by
      funext source
      rw [broadcastWindow, broadcastWindow, hreplay, hfloods.2]
    by_cases htype : header.packetType = PacketType.broadcast
    · rw [dispatchDelivered_broadcast base env hd' htype, handleBroadcastFrame_eq]
      refine ⟨hkey.trans hfloods.1, hseen, ?_⟩
      rcases base.broadcastAnswer_cases (C := C) header.fromNodeId hd' with
        ⟨hsame, hnone⟩ | ⟨hmark, hnew⟩
      · exact Or.inl ⟨(hsame.trans hreplay).trans hfloods.2, hnone⟩
      · rw [hwindow, hreplay, hfloods.2] at hmark
        rw [hwindow] at hnew
        exact Or.inr ⟨header, hd, rfl, htype, hmark, hnew⟩
    · have hquiet := dispatchDelivered_quiet (N := N) (C := C) base header.fromNodeId env hd' htype
      have hsame := hquiet.broadcasts
      simp only [broadcasts, Prod.mk.injEq] at hsame
      obtain ⟨hkey', hreplay', hseen'⟩ := hsame
      exact ⟨(hkey'.trans hkey).trans hfloods.1, hseen'.trans hseen,
        Or.inl ⟨(hreplay'.trans hreplay).trans hfloods.2, hquiet.not_broadcast⟩⟩

/-- No session appears, and those that stay keep their invariants. -/
structure Shrinks (d d' : MeshData σ) : Prop where
  sessions : ∀ peer, d'.hasSession peer = true → d.hasSession peer = true
  keeps : KeepsSessions d d'

/-- Moreover the broadcasts stay as they are. -/
structure Inert (d d' : MeshData σ) : Prop extends Shrinks d d' where
  broadcasts : d'.broadcasts = d.broadcasts

theorem Shrinks.of_sessions {d' : MeshData σ} (h : d'.sessions = d.sessions) : Shrinks d d' := by
  refine ⟨fun peer hs => ?_, .of_sessions h⟩
  rwa [hasSession, h] at hs

theorem Inert.refl (d : MeshData σ) : Inert d d := ⟨⟨fun _ h => h, .refl d⟩, rfl⟩

theorem Inert.trans {d d' d'' : MeshData σ} (h : Inert d d') (h' : Inert d' d'') : Inert d d'' :=
  ⟨⟨fun peer hp => h.sessions peer (h'.sessions peer hp), h.keeps.trans h'.keeps⟩,
    h'.broadcasts.trans h.broadcasts⟩

theorem Inert.of_sessions {d' : MeshData σ} (hb : d'.broadcasts = d.broadcasts)
    (hs : d'.sessions = d.sessions) : Inert d d' := ⟨.of_sessions hs, hb⟩

theorem Inert.foldl {α : Type} {f : MeshData σ → α → MeshData σ} (h : ∀ d a, Inert d (f d a))
    (as : List α) (d : MeshData σ) : Inert d (as.foldl f d) := by
  induction as generalizing d with
  | nil => exact .refl d
  | cons a as ih => exact (h d a).trans (ih _)

theorem dropSession_inert (d : MeshData σ) (peer : UInt32) : Inert d (d.dropSession peer) := by
  have hget : ∀ (other : UInt32) s, (d.dropSession peer).sessions[other]? = some s →
      d.sessions[other]? = some s := by
    intro other s hs
    rw [dropSession, Table.getElem?_erase] at hs
    split_ifs at hs
    exact hs
  refine ⟨⟨fun other h => ?_, fun P _ hd other s hs => hd other s (hget other s hs)⟩, rfl⟩
  obtain ⟨s, hs⟩ := Option.isSome_iff_exists.mp h
  exact Option.isSome_iff_exists.mpr ⟨s, hget other s hs⟩

theorem buildTypedFrame_inert (d : MeshData σ) (dest : UInt32) (pathId : UInt64)
    (packetType : UInt8) (payload : Bytes) :
    Inert d (d.buildTypedFrame C dest pathId packetType payload).2 := by
  unfold buildTypedFrame
  split
  · exact .refl d
  · rename_i s hs
    split
    · exact .refl d
    · refine ⟨⟨fun peer h => ?_, .of_insert rfl fun P hP hd => ?_⟩, rfl⟩
      · rwa [hasSession, hasSession_insert hs] at h
      · exact hP.nextSeq s (hd dest s hs)

theorem buildDataFrame_inert (d : MeshData σ) (dest : UInt32) (payload : Bytes)
    (flowHash nowUnix : UInt64) :
    Inert d (d.buildDataFrame C dest payload flowHash nowUnix).2 := by
  obtain ⟨_, hpick⟩ := d.pickPath_eq dest flowHash nowUnix
  have hsame : Inert d (d.pickPath dest flowHash nowUnix).2 := by
    rw [hpick]
    exact .of_sessions rfl rfl
  exact hsame.trans (buildTypedFrame_inert _ dest _ _ payload)

theorem removePathsFor_inert (d : MeshData σ) (dest : UInt32) : Inert d (d.removePathsFor dest) := by
  unfold removePathsFor
  split
  · exact .refl d
  · have hfold := Inert.foldl (f := fun (d : MeshData σ) (p : PathEntry) => d.removeKeyPath p.pathId)
      fun _ _ => .of_sessions rfl rfl
    refine Inert.trans ?_ (hfold _ _)
    exact .of_sessions rfl rfl

theorem withdrawPath_inert (d : MeshData σ) (dest : UInt32) (pathId : UInt64) :
    Inert d (d.withdrawPath dest pathId) := by
  unfold withdrawPath
  dsimp only
  split
  · exact .of_sessions rfl rfl
  · exact .of_sessions rfl rfl

theorem applyUpdate_inert (d : MeshData σ) {u : TableUpdate}
    (h : ∀ key, u ≠ .setBroadcastKey key) : Inert d (d.applyUpdate u) := by
  cases u with
  | withdrawPath dest pathId => exact withdrawPath_inert d dest pathId
  | removePathsFor dest => exact removePathsFor_inert d dest
  | setBroadcastKey key => exact absurd rfl (h key)
  | _ => exact .of_sessions rfl rfl

theorem rekeySessions_inert (d : MeshData σ) (now : ℕ) : Inert d (d.rekeySessions C now) := by
  refine ⟨⟨fun peer h => ?_, fun P hP hd peer s hs => ?_⟩, rfl⟩
  · rwa [hasSession, rekeySessions, Std.ExtTreeMap.getElem?_map, Option.isSome_map] at h
  · rw [rekeySessions, Std.ExtTreeMap.getElem?_map] at hs
    obtain ⟨s₀, hs₀, rfl⟩ := Option.map_eq_some_iff.mp hs
    exact hP.rekey C s₀ now (hd peer s₀ hs₀)

/-- Of the calls only frames and new broadcast keys touch the broadcasts, and only frames make
sessions. -/
theorem perform_inert (d : MeshData σ) (env : CallEnv) {call : MeshCall}
    (hframe : ∀ bytes, call ≠ .frame bytes) (hkey : ∀ key, call ≠ .update (.setBroadcastKey key)) :
    Inert d (d.perform N C env call).2 := by
  cases call with
  | frame bytes => exact absurd rfl (hframe bytes)
  | initiateHandshake peer =>
    rcases d.initiateHandshake_spec (N := N) (C := C) peer env with h | ⟨_, _, _, _, _, -, -, -, -, h⟩
    · rw [perform, h]
      exact .refl d
    · rw [perform, h]
      exact .of_sessions rfl rfl
  | dropInitiator peer => exact .of_sessions rfl rfl
  | dropSession peer => exact dropSession_inert d peer
  | rekeySessions => exact rekeySessions_inert d env.now
  | buildDataFrame dest payload flowHash => exact buildDataFrame_inert d dest payload _ _
  | buildHeartbeatFrame dest => exact buildTypedFrame_inert d dest _ _ _
  | buildBroadcastFrame payload =>
    rw [perform, buildBroadcastFrame]
    split
    · exact .refl d
    · exact .of_sessions rfl rfl
  | sendToNode dest =>
    obtain ⟨_, _, hsend⟩ := d.sendFrame_eq dest env
    rw [perform, hsend]
    exact .of_sessions rfl rfl
  | pathMissPeer dest =>
    obtain ⟨_, hmiss⟩ := d.pathMissPeer_eq dest
    rw [perform, hmiss]
    exact .of_sessions rfl rfl
  | sendPathProbe dest pathId nonce =>
    rw [perform, sendPathProbe]
    split_ifs
    · exact .refl d
    · exact .of_sessions rfl rfl
    · exact .refl d
  | pollPathProbeTimeouts =>
    have hfold := Inert.foldl
      (f := fun (d : MeshData σ) (p : UInt32 × UInt32 × UInt64 × ℕ) => d.pathMiss p.2.2.1)
      fun _ _ => .of_sessions rfl rfl
    refine Inert.trans ?_ (hfold _ _)
    exact .of_sessions rfl rfl
  | update u => exact applyUpdate_inert d fun key h => hkey key (congrArg MeshCall.update h)

end MeshData

end Rill
