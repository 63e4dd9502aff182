import Rill.HandshakeAgreement
import Rill.MeshDispatch
import Rill.SessionNonce

/-!
# Where the keys of a session come from

`Genuine` is the invariant of a node that holds one private key: every initiator has written a
first message with it, every responder has answered one with it, and the keys of every session go
back, through rekeys, to a handshake that the node completed with it. The last part names the
static key of the peer in that handshake, which a table beside the node keeps: the key from the
netmap that the initiator expected, or the key that the verifier accepted.
-/

namespace Rill

/-- The keys a session opens frames with: the current one and, for a while, the previous one. -/
def Session.receiveKeys (s : Session) : List Bytes := s.keys.rxKey :: (s.oldRx.map OldRx.key).toList

variable {σ : Type} (N : Snow σ) (C : Crypto)

/-- The keys of the session are those of the handshake state, after some rekeys. -/
structure Session.From (role : Role) (st : σ) (s : Session) : Prop where
  tx : ∃ n, s.keys.txKey =
    C.rekeyChain^[n] (C.bindTranscript (N.txSplit role st) (N.getHandshakeHash st))
  rx : ∀ key ∈ s.receiveKeys, ∃ n, key =
    C.rekeyChain^[n] (C.bindTranscript (N.rxSplit role st) (N.getHandshakeHash st))

namespace Session
variable {N C} {role : Role} {st : σ} {s : Session}

theorem from_new (peer : UInt32) (salt : UInt32) :
    From N C role st (Session.new peer (N.sessionKeys C role st salt)) where
  tx := ⟨0, rfl⟩
  rx _ hkey := ⟨0, List.mem_singleton.mp hkey⟩

theorem From.nextSeq (h : From N C role st s) : From N C role st s.nextSeq.2 := ⟨h.tx, h.rx⟩

theorem From.rekey (h : From N C role st s) (now : ℕ) : From N C role st (s.rekey C now) where
  tx := by
    obtain ⟨n, hn⟩ := h.tx
    exact ⟨n + 1, by rw [Function.iterate_succ_apply', ← hn]; rfl⟩
  rx key hkey := by
    obtain ⟨n, hn⟩ := h.rx s.keys.rxKey List.mem_cons_self
    simp only [receiveKeys, Session.rekey, Option.map_some, Option.toList_some, List.mem_cons,
      List.not_mem_nil, or_false] at hkey
    rcases hkey with rfl | rfl
    · exact ⟨n + 1, by rw [Function.iterate_succ_apply', ← hn]⟩
    · exact ⟨n, hn⟩

section Open
variable {α : Type} {tryKey : Bytes → Except FrameOpenError (MeshFrameHeader × α)} {now : ℕ}

theorem openWith_spec (s : Session) (tryKey : Bytes → Except FrameOpenError (MeshFrameHeader × α))
    (now : ℕ) : (s.openWith tryKey now).2.keys = s.keys ∧
      (∀ key ∈ (s.openWith tryKey now).2.receiveKeys, key ∈ s.receiveKeys) ∧
      ∀ r, (s.openWith tryKey now).1 = .ok r → ∃ key ∈ s.receiveKeys, tryKey key = .ok r := by
  have hcur : s.keys.rxKey ∈ s.receiveKeys := List.mem_cons_self
  cases hk : tryKey s.keys.rxKey with
  | ok r =>
    rw [openWith_current hk]
    refine ⟨rfl, fun key hkey => hkey, fun r' hr => ⟨_, hcur, ?_⟩⟩
    dsimp only at hr
    split_ifs at hr
    rw [hk, ← Except.ok.inj hr]
  | error e =>
    by_cases he : ∃ a, e = .aead a
    · obtain ⟨a, rfl⟩ := he
      cases ho : s.oldRx with
      | none =>
        rw [openWith_no_old hk ho]
        exact ⟨rfl, fun key hkey => hkey, fun r hr => by cases hr⟩
      | some old =>
        have hold : old.key ∈ s.receiveKeys := by simp [receiveKeys, ho]
        by_cases hexp : old.expiresAt ≤ now
        · rw [openWith_expired hk ho hexp]
          refine ⟨rfl, fun key hkey => ?_, fun r hr => by cases hr⟩
          rw [List.mem_singleton.mp hkey]
          exact hcur
        · cases hq : tryKey old.key with
          | ok r =>
            rw [openWith_old hk ho hexp hq]
            refine ⟨rfl, fun key hkey => ?_, fun r' hr => ⟨_, hold, ?_⟩⟩
            · simpa [receiveKeys, ho] using hkey
            · dsimp only at hr
              split_ifs at hr
              rw [hq, ← Except.ok.inj hr]
          | error e =>
            rw [openWith_old_rejected hk ho hexp hq]
            exact ⟨rfl, fun key hkey => hkey, fun r hr => by cases hr⟩
    · rw [openWith_rejected hk (fun a ha => he ⟨a, ha⟩)]
      exact ⟨rfl, fun key hkey => hkey, fun r hr => by cases hr⟩

theorem From.openWith (h : From N C role st s) : From N C role st (s.openWith tryKey now).2 := by
  obtain ⟨hkeys, hrecv, -⟩ := s.openWith_spec tryKey now
  exact ⟨by rw [hkeys]; exact h.tx, fun key hkey => h.rx key (hrecv key hkey)⟩

end Open

end Session

namespace MeshData

/-- The tables of a node that handshakes and sessions live in are the same. -/
structure SameSecrets (d d' : MeshData σ) : Prop where
  ctx : d'.ctx = d.ctx
  initiators : d'.initiators = d.initiators
  responders : d'.responders = d.responders
  sessions : d'.sessions = d.sessions

structure Genuine (priv : Bytes) (bound : Table UInt32 Bytes) (d : MeshData σ) : Prop where
  ctx : ∀ c, d.ctx = some c → c.localStatic = priv
  initiator : ∀ (peer : UInt32) i, d.initiators[peer]? = some i → i.Opened N priv
  responder : ∀ (peer : UInt32) r, d.responders[peer]? = some r → r.Answered N priv
  session : ∀ (peer : UInt32) s, d.sessions[peer]? = some s → ∃ role st remote,
    bound[peer]? = some remote ∧ N.Completed role priv st ∧ N.getRemoteStatic st = some remote ∧
    s.From N C role st

/-- The static key that a call which reports a session has bound to the peer: the one of the claim
where the call used up the responder, and else the one the initiator expected. -/
def boundKey (d : MeshData σ) (r : Handled σ) (peer : UInt32) : Option Bytes :=
  if (d.responders[peer]?).isSome && (r.node.responders[peer]?).isNone then
    r.node.bindingClaims[peer]?.map BindingClaim.staticPubkey
  else d.initiators[peer]?.map HandshakeInitiator.expectedPeerStatic

/-- The table of bound keys after a call. -/
def bindKeys (d : MeshData σ) (r : Handled σ) (bound : Table UInt32 Bytes) : Table UInt32 Bytes :=
  match r.event with
  | .established peer =>
    match d.boundKey r peer with
    | some key => bound.insert peer key
    | none => bound
  | _ => bound

variable {N C} {priv : Bytes} {bound : Table UInt32 Bytes} {d : MeshData σ}

theorem bindKeys_of_ne {r : Handled σ} (h : ∀ peer, r.event ≠ .established peer)
    (bound : Table UInt32 Bytes) : d.bindKeys r bound = bound := by
  unfold bindKeys
  split
  · rename_i peer heq
    exact absurd heq (h peer)
  · rfl

theorem bindKeys_congr {d' : MeshData σ} (h : SameSecrets d d') (r : Handled σ)
    (bound : Table UInt32 Bytes) : d'.bindKeys r bound = d.bindKeys r bound := by
  have hkey : d'.boundKey r = d.boundKey r := by
    funext peer
    rw [boundKey, boundKey, h.responders, h.initiators]
  simp only [bindKeys, hkey]

namespace Genuine

theorem congr {d' : MeshData σ} (hg : Genuine N C priv bound d) (h : SameSecrets d d') :
    Genuine N C priv bound d' where
  ctx := by rw [h.ctx]; exact hg.ctx
  initiator := by rw [h.initiators]; exact hg.initiator
  responder := by rw [h.responders]; exact hg.responder
  session := by rw [h.sessions]; exact hg.session

theorem eraseInitiator (hg : Genuine N C priv bound d) (peer : UInt32) :
    Genuine N C priv bound { d with initiators := d.initiators.erase peer } where
  ctx := hg.ctx
  initiator p i hi := by
    simp only [Table.getElem?_erase] at hi
    split_ifs at hi
    exact hg.initiator p i hi
  responder := hg.responder
  session := hg.session

theorem eraseResponder (hg : Genuine N C priv bound d) (peer : UInt32) :
    Genuine N C priv bound { d with responders := d.responders.erase peer } where
  ctx := hg.ctx
  initiator := hg.initiator
  responder p r hr := by
    simp only [Table.getElem?_erase] at hr
    split_ifs at hr
    exact hg.responder p r hr
  session := hg.session

theorem insertInitiator (hg : Genuine N C priv bound d) (peer : UInt32) {i : HandshakeInitiator σ}
    (hi : i.Opened N priv) :
    Genuine N C priv bound { d with initiators := d.initiators.insert peer i } where
  ctx := hg.ctx
  initiator p i' hi' := by
    simp only [Table.getElem?_insert] at hi'
    split_ifs at hi'
    · rwa [← Option.some.inj hi']
    · exact hg.initiator p i' hi'
  responder := hg.responder
  session := hg.session

theorem insertResponder (hg : Genuine N C priv bound d) (peer : UInt32) {r : HandshakeResponder σ}
    (hr : r.Answered N priv) :
    Genuine N C priv bound { d with responders := d.responders.insert peer r } where
  ctx := hg.ctx
  initiator := hg.initiator
  responder p r' hr' := by
    simp only [Table.getElem?_insert] at hr'
    split_ifs at hr'
    · rwa [← Option.some.inj hr']
    · exact hg.responder p r' hr'
  session := hg.session

theorem updateSession (hg : Genuine N C priv bound d) {peer : UInt32} {s s' : Session}
    (hs : d.sessions[peer]? = some s) (hfrom : ∀ role st, s.From N C role st → s'.From N C role st) :
    Genuine N C priv bound { d with sessions := d.sessions.insert peer s' } where
  ctx := hg.ctx
  initiator := hg.initiator
  responder := hg.responder
  session p t ht := by
    simp only [Table.getElem?_insert] at ht
    split_ifs at ht with hp
    · subst hp
      cases ht
      obtain ⟨role, st, remote, hb, hdone, hremote, hf⟩ := hg.session peer s hs
      exact ⟨role, st, remote, hb, hdone, hremote, hfrom role st hf⟩
    · exact hg.session p t ht

theorem newSession (hg : Genuine N C priv bound d) (peer : UInt32) {role : Role} {st : σ}
    {remote : Bytes} (salt : UInt32) (hdone : N.Completed role priv st)
    (hremote : N.getRemoteStatic st = some remote) :
    Genuine N C priv (bound.insert peer remote) { d with
      sessions := d.sessions.insert peer (Session.new peer (N.sessionKeys C role st salt)) } where
  ctx := hg.ctx
  initiator := hg.initiator
  responder := hg.responder
  session p t ht := by
    simp only [Table.getElem?_insert] at ht ⊢
    split_ifs at ht ⊢ with hp
    · cases ht
      exact ⟨role, st, remote, rfl, hdone, hremote, Session.from_new peer salt⟩
    · exact hg.session p t ht

theorem initiateHandshake (hg : Genuine N C priv bound d) (peer : UInt32) (env : CallEnv) :
    Genuine N C priv bound (d.initiateHandshake N C peer env).2 := by
  rcases d.initiateHandshake_spec (N := N) (C := C) peer env with
    h | ⟨ctx, peerStatic, i₀, i₁, msg1, hctx, -, hnew, hwrite, h⟩
  · rwa [h]
  · rw [h]
    have hopened := (HandshakeInitiator.opened_of_new hnew hwrite).1
    rw [hg.ctx ctx hctx] at hopened
    exact hg.insertInitiator peer hopened

theorem buildTypedFrame (hg : Genuine N C priv bound d) (dest : UInt32) (pathId : UInt64)
    (packetType : UInt8) (payload : Bytes) :
    Genuine N C priv bound (d.buildTypedFrame C dest pathId packetType payload).2 := by
  unfold MeshData.buildTypedFrame
  split
  · exact hg
  · rename_i s hs
    split
    · exact hg
    · exact hg.updateSession hs fun _ _ h => h.nextSeq

theorem pickPath (hg : Genuine N C priv bound d) (dest : UInt32) (flowHash nowUnix : UInt64) :
    Genuine N C priv bound (d.pickPath dest flowHash nowUnix).2 := by
  obtain ⟨sentPath, h⟩ := d.pickPath_eq dest flowHash nowUnix
  rw [h]
  exact hg.congr ⟨rfl, rfl, rfl, rfl⟩

theorem buildBroadcastFrame (hg : Genuine N C priv bound d) (payload : Bytes) :
    Genuine N C priv bound (d.buildBroadcastFrame C payload).2 := by
  unfold MeshData.buildBroadcastFrame
  split
  · exact hg
  · exact hg.congr ⟨rfl, rfl, rfl, rfl⟩

theorem rekeySession (hg : Genuine N C priv bound d) (peer : UInt32) (now : ℕ) :
    Genuine N C priv bound (d.rekeySession C peer now) := by
  unfold MeshData.rekeySession
  split
  · exact hg
  · rename_i s hs
    exact hg.updateSession hs fun _ _ h => h.rekey now

theorem handleHandshake (hg : Genuine N C priv bound d) (source : UInt32) (payload : Bytes)
    (env : CallEnv) :
    Genuine N C priv (d.bindKeys (d.handleHandshake N C source payload env) bound)
      (d.handleHandshake N C source payload env).node := by
  unfold MeshData.handleHandshake
  split_ifs
  · obtain ⟨event, inits, resps, _, _, _, heq, hevent, hinits, hresps⟩ :=
      d.handleMsg1_spec (N := N) (C := C) source payload env
    rw [heq, bindKeys_of_ne hevent]
    have hg₁ : Genuine N C priv bound { d with initiators := inits } := by
      rcases hinits with rfl | rfl
      · exact hg
      · exact hg.eraseInitiator source
    have hg₂ : Genuine N C priv bound { d with initiators := inits, responders := resps } := by
      rcases hresps with rfl | ⟨ctx, r₀, r₁, r₂, msg2, hctx, hnew, hread, hwrite, rfl⟩
      · exact hg₁
      · have hanswered := HandshakeResponder.answered_of_new hnew hread hwrite
        rw [hg.ctx ctx hctx] at hanswered
        exact hg₁.insertResponder source hanswered
    exact hg₂.congr ⟨rfl, rfl, rfl, rfl⟩
  · obtain ⟨event, inits, sess, _, _, _, heq, hinits, hsess⟩ :=
      d.handleMsg2_spec (N := N) (C := C) source payload env
    have hg₁ : Genuine N C priv bound { d with initiators := inits } := by
      rcases hinits with rfl | rfl
      · exact hg
      · exact hg.eraseInitiator source
    rcases hsess with ⟨hevent, rfl⟩ | ⟨rfl, i, i', msg3, keys, hi, hread, hfinish, rfl⟩
    · rw [heq, bindKeys_of_ne hevent]
      exact hg₁.congr ⟨rfl, rfl, rfl, rfl⟩
    · obtain ⟨hdone, hremote, rfl, -⟩ := (hg.initiator source i hi).finish hread hfinish
      have hbind : d.bindKeys (d.handleMsg2 N C source payload env) bound =
          bound.insert source i.expectedPeerStatic := by
        rw [heq]
        cases hr : d.responders[source]? <;> simp [bindKeys, boundKey, hi, hr]
      rw [hbind, heq]
      exact (hg₁.newSession source i.salt hdone hremote).congr ⟨rfl, rfl, rfl, rfl⟩
  · obtain ⟨event, resps, claims, sess, heq, hresps, hsess⟩ :=
      d.handleMsg3_spec (N := N) (C := C) source payload
    have hg₁ : Genuine N C priv bound { d with responders := resps } := by
      rcases hresps with rfl | rfl
      · exact hg
      · exact hg.eraseResponder source
    rcases hsess with ⟨hevent, rfl⟩ | ⟨rfl, rfl, r, verify, keys, rs, w, hr, -, hread, rfl, rfl⟩
    · rw [heq, bindKeys_of_ne hevent]
      exact hg₁.congr ⟨rfl, rfl, rfl, rfl⟩
    · obtain ⟨-, -, st, -, hdone, hremote, rfl⟩ := (hg.responder source r hr).readMsg3 hread
      have hbind : d.bindKeys (d.handleMsg3 N C source payload) bound = bound.insert source rs := by
        rw [heq]
        simp [bindKeys, boundKey, hr]
      rw [hbind, heq]
      exact (hg₁.newSession source w.salt hdone hremote).congr ⟨rfl, rfl, rfl, rfl⟩
  · rw [bindKeys_of_ne (by simp)]
    exact hg

end Genuine

/-- What a session frame does: it may open under a key of the session with its sender, and only
then is there data. -/
theorem handleSessionFrame_spec (d : MeshData σ) (source : UInt32) (frame : Bytes) (heartbeat : Bool)
    (env : CallEnv) : ∃ event stats sessions, d.handleSessionFrame C source frame heartbeat env =
        (event, { d with pathStats := stats, sessions := sessions }) ∧
      (∀ peer, event ≠ .established peer) ∧
      (sessions = d.sessions ∨ ∃ s routeKey, d.sessions[source]? = some s ∧
        sessions = d.sessions.insert source (s.openFrameInPlace C frame routeKey env.now).2) ∧
      ∀ peer payload, event = .data peer payload → heartbeat = false ∧ peer = source ∧
        ∃ s routeKey key h, d.sessions[source]? = some s ∧ key ∈ s.receiveKeys ∧
          C.openFrame frame routeKey key s.keys.salt = .ok (h, payload) := by
  unfold handleSessionFrame
  split
  · exact ⟨_, _, _, rfl, by simp, Or.inl rfl, by simp⟩
  · split
    · exact ⟨_, _, _, rfl, by simp, Or.inl rfl, by simp⟩
    · rename_i routeKey _
      split
      · exact ⟨_, _, _, rfl, by simp, Or.inl rfl, by simp⟩
      · rename_i s hs
        dsimp only
        split
        · rename_i h ptLen buf hok
          split
          · exact ⟨_, _, _, rfl, by simp, Or.inr ⟨s, routeKey, hs, rfl⟩, by simp⟩
          · split
            · exact ⟨_, _, _, rfl, by simp, Or.inr ⟨s, routeKey, hs, rfl⟩, by simp⟩
            · rename_i hbeat
              refine ⟨_, _, _, rfl, by simp, Or.inr ⟨s, routeKey, hs, rfl⟩, fun peer payload hev => ?_⟩
              obtain ⟨rfl, rfl⟩ := IncomingEvent.data.inj hev
              obtain ⟨-, -, hopen⟩ := s.openWith_spec _ env.now
              obtain ⟨key, hkey, hopen⟩ := hopen _ hok
              refine ⟨by simpa using hbeat, rfl, s, routeKey, key, h, hs, hkey, ?_⟩
              rw [← Crypto.openFrameInPlace_map]
              cases hframe : C.openFrameInPlace frame routeKey key s.keys.salt with
              | error e => simp [hframe, Except.map] at hopen
              | ok r =>
                obtain ⟨h', plain, buf'⟩ := r
                simp only [hframe, Except.map, Except.ok.injEq, Prod.mk.injEq] at hopen
                obtain ⟨rfl, rfl, rfl⟩ := hopen
                rw [Crypto.field_openFrameInPlace hframe]
                rfl
        all_goals exact ⟨_, _, _, rfl, by simp, Or.inr ⟨s, routeKey, hs, rfl⟩, by simp⟩

/-- A call that touches no handshake and no session and reports neither a session nor data. -/
structure Uninvolved (d : MeshData σ) (r : Handled σ) : Prop where
  same : SameSecrets d r.node
  not_established : ∀ peer, r.event ≠ .established peer
  not_data : ∀ peer payload, r.event ≠ .data peer payload

theorem handleBroadcastFrame_uninvolved (d : MeshData σ) (source : UInt32) (frame : Bytes) :
    Uninvolved d { event := (d.handleBroadcastFrame C source frame).1
                   node := (d.handleBroadcastFrame C source frame).2 } := by
  unfold handleBroadcastFrame
  split
  · exact ⟨⟨rfl, rfl, rfl, rfl⟩, by simp, by simp⟩
  · split
    · exact ⟨⟨rfl, rfl, rfl, rfl⟩, by simp, by simp⟩
    · dsimp only
      split
      · exact ⟨⟨rfl, rfl, rfl, rfl⟩, by simp, by simp⟩
      · split
        all_goals exact ⟨⟨rfl, rfl, rfl, rfl⟩, by simp, by simp⟩

theorem handlePathProbe_uninvolved (d : MeshData σ) (header : MeshFrameHeader) (payload : Bytes)
    (env : CallEnv) : Uninvolved d (d.handlePathProbe C header payload env) := by
  unfold handlePathProbe
  split
  · exact ⟨⟨rfl, rfl, rfl, rfl⟩, by simp, by simp⟩
  · split
    · split
      all_goals exact ⟨⟨rfl, rfl, rfl, rfl⟩, by simp, by simp⟩
    · split
      · exact ⟨⟨rfl, rfl, rfl, rfl⟩, by simp, by simp⟩
      · split
        · exact ⟨⟨rfl, rfl, rfl, rfl⟩, by simp, by simp⟩
        · dsimp only
          split
          all_goals exact ⟨⟨rfl, rfl, rfl, rfl⟩, by simp, by simp⟩

theorem Genuine.of_uninvolved (hg : Genuine N C priv bound d) {r : Handled σ} (h : Uninvolved d r) :
    Genuine N C priv (d.bindKeys r bound) r.node := by
  rw [bindKeys_of_ne h.not_established]
  exact hg.congr h.same

theorem Genuine.handleSessionFrame (hg : Genuine N C priv bound d) (source : UInt32) (frame : Bytes)
    (heartbeat : Bool) (env : CallEnv) :
    Genuine N C priv (d.bindKeys { event := (d.handleSessionFrame C source frame heartbeat env).1
                                   node := (d.handleSessionFrame C source frame heartbeat env).2 } bound)
      (d.handleSessionFrame C source frame heartbeat env).2 := by
  obtain ⟨event, stats, sessions, heq, hevent, hsess, -⟩ :=
    d.handleSessionFrame_spec (C := C) source frame heartbeat env
  rw [heq, bindKeys_of_ne hevent]
  rcases hsess with rfl | ⟨s, routeKey, hs, rfl⟩
  · exact hg.congr ⟨rfl, rfl, rfl, rfl⟩
  · exact (hg.updateSession hs fun _ _ h => h.openWith).congr ⟨rfl, rfl, rfl, rfl⟩

theorem Genuine.dispatchDelivered (hg : Genuine N C priv bound d) (source : UInt32) (frame : Bytes)
    (env : CallEnv) : Genuine N C priv (d.bindKeys (d.dispatchDelivered N C source frame env) bound)
      (d.dispatchDelivered N C source frame env).node := by
  unfold MeshData.dispatchDelivered
  split
  · exact hg.of_uninvolved ⟨⟨rfl, rfl, rfl, rfl⟩, by simp, by simp⟩
  · split_ifs
    · split
      · exact hg.handleHandshake source _ env
      · exact hg.of_uninvolved ⟨⟨rfl, rfl, rfl, rfl⟩, by simp, by simp⟩
    · exact hg.handleSessionFrame source frame false env
    · exact hg.handleSessionFrame source frame true env
    · exact hg.of_uninvolved (d.handleBroadcastFrame_uninvolved source frame)
    · split
      · exact hg.of_uninvolved (d.handlePathProbe_uninvolved _ _ env)
      · exact hg.of_uninvolved ⟨⟨rfl, rfl, rfl, rfl⟩, by simp, by simp⟩
    · exact hg.of_uninvolved ⟨⟨rfl, rfl, rfl, rfl⟩, by simp, by simp⟩

/-- A frame keeps the invariant of the node it is delivered to. -/
theorem Genuine.handleFrame (hg : Genuine N C priv bound d) (frame : Bytes) (env : CallEnv) :
    Genuine N C priv (d.bindKeys (d.handleFrame N C frame env) bound)
      (d.handleFrame N C frame env).node := by
  obtain ⟨outcome, seen, frame', heq, -, -⟩ := d.relay_spec (C := C) frame env
  rw [MeshData.handleFrame, heq]
  have hdispatch : ∀ source, Genuine N C priv (d.bindKeys
      (({ d with floodSeen := seen }.noteIngress source env).dispatchDelivered N C source frame' env) bound)
      (({ d with floodSeen := seen }.noteIngress source env).dispatchDelivered N C source frame' env).node := by
    intro source
    obtain ⟨hop, health, hingress⟩ := noteIngress_eq { d with floodSeen := seen } source env
    have hsame : SameSecrets d ({ d with floodSeen := seen }.noteIngress source env) := by
      rw [hingress]
      exact ⟨rfl, rfl, rfl, rfl⟩
    rw [← bindKeys_congr hsame]
    exact (hg.congr hsame).dispatchDelivered source frame' env
  cases outcome with
  | delivered source => exact hdispatch source
  | flooded source => exact hdispatch source
  | forwarded dest => exact hg.of_uninvolved ⟨⟨rfl, rfl, rfl, rfl⟩, by simp, by simp⟩
  | dropped reason => exact hg.of_uninvolved ⟨⟨rfl, rfl, rfl, rfl⟩, by simp, by simp⟩

end MeshData

end Rill
