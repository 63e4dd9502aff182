import Rill.PathEffects
import Rill.ServerEffects

/-!
# The calls of the handlers

Most of what a handler does is plain: it neither registers a connection, nor takes path events, nor
writes of nodes and keys of the network. What is not plain happens in four places: the completion of
a challenge, and the three pushes of nodes, path events and routes. A discipline holds when these
four do what it asks.
-/

namespace Rill

open Interaction (Program Rules)
open Interaction.Program

/-- Neither a registration, nor path events, nor a message about nodes, keys, paths or a lease. -/
def ServerCall.Plain : ServerCall → Prop
  | .setRegistered _ => False
  | .takePathEvents _ => False
  | .write (.netmapPush _) => False
  | .write (.keyDist _) => False
  | .write (.pathUpdate _) => False
  | .write (.pathWithdraw _ _ _) => False
  | .write (.routeMap _ _) => False
  | .write (.lease _ _) => False
  | _ => True

/-- A plain call that leaves the challenge alone. -/
def ServerCall.Quiet : ServerCall → Prop
  | .setChallenge _ => False
  | other => other.Plain

theorem ServerCall.Quiet.plain {call : ServerCall} (h : call.Quiet) : call.Plain := by
  cases call with
  | setChallenge ch => exact h.elim
  | _ => exact h

namespace Handler

theorem only_plain {α : Type} {p : Handler α} (h : p.Only ServerCall.Quiet) :
    p.Only ServerCall.Plain := h.imp fun _ => ServerCall.Quiet.plain

theorem only_writeMsg {P : ServerCall → Prop} {msg : ServerMessage} (h : P (.write msg)) :
    (writeMsg msg).Only P := ⟨h, fun _ => only_ensure _ _⟩

theorem only_writeLeaderRedirect (leadership : Leadership) :
    (writeLeaderRedirect leadership).Only ServerCall.Quiet := by
  cases leadership with
  | leader => trivial
  | follower leaderEndpoint term => exact only_writeMsg trivial

theorem only_redirect : redirect.Only ServerCall.Quiet :=
  ⟨trivial, fun leadership => only_writeLeaderRedirect leadership⟩

theorem only_noteFailure (ip : Option IpAddr) : (noteFailure ip).Only ServerCall.Quiet := by
  cases ip with
  | none => trivial
  | some ip => exact ⟨trivial, fun _ => trivial⟩

theorem only_clearFailures (ip : Option IpAddr) : (clearFailures ip).Only ServerCall.Quiet := by
  cases ip with
  | none => trivial
  | some ip => exact ⟨trivial, fun _ => trivial⟩

theorem only_admitRegister (ip : Option IpAddr) : (admitRegister ip).Only ServerCall.Quiet := by
  cases ip with
  | none => trivial
  | some ip =>
    refine only_perform_bind trivial fun locked => only_bind (only_ensure _ _) fun _ => ?_
    exact only_perform_bind trivial fun allowed => only_ensure _ _

theorem only_issueChallenge (L : ServerCrates) (nodeId : UInt32) (pubkey : Key32)
    (pending : PendingRegister) : (issueChallenge L nodeId pubkey pending).Only ServerCall.Plain := by
  refine only_perform_bind trivial fun random => only_perform_bind trivial fun issuedAt => ?_
  exact only_bind (only_writeMsg trivial) fun _ => ⟨trivial, fun _ => trivial⟩

theorem only_classify (L : ServerCrates) (ip : Option IpAddr) (pubkey : Key32)
    (pending : PendingRegister) : (classify L ip pubkey pending).Only ServerCall.Plain := by
  refine only_perform_bind trivial fun known => ?_
  cases known with
  | some nodeId => exact only_issueChallenge L _ _ _
  | none =>
    refine only_perform_bind trivial fun admissible => ?_
    cases admissible with
    | true => exact only_issueChallenge L _ _ _
    | false => exact only_bind (only_plain (only_noteFailure ip)) fun _ => trivial

theorem only_readRegister (L : ServerCrates) (ip : Option IpAddr) (req : Option RegisterRequest) :
    (readRegister L ip req).Only ServerCall.Plain := by
  cases req with
  | none => trivial
  | some req =>
    refine only_bind (only_ensure _ _) fun _ => ?_
    cases toKey32 req.staticPubkey with
    | none => trivial
    | some pubkey => exact only_classify L ip pubkey _

theorem only_handleRegister (L : ServerCrates) (ip : Option IpAddr) (req : Option RegisterRequest) :
    (handleRegister L ip req).Only ServerCall.Plain := by
  refine only_perform_bind trivial fun leadership => ?_
  cases leadership with
  | follower leaderEndpoint term => exact only_plain (only_writeLeaderRedirect _)
  | leader => exact only_bind (only_plain (only_admitRegister ip)) fun _ => only_readRegister L ip req

theorem only_checkResumed (ch : ChallengeState) : (checkResumed ch).Only ServerCall.Quiet := by
  rw [checkResumed]
  split_ifs
  · refine only_perform_bind trivial fun entryPub => ?_
    cases entryPub with
    | none => trivial
    | some entryPub => exact only_ensure _ _
  · trivial

theorem only_verifyChallenge (L : ServerCrates) (ch : ChallengeState) (tag : Bytes) :
    (verifyChallenge L ch tag).Only ServerCall.Quiet := by
  refine only_bind (only_ensure _ _) fun _ => ?_
  exact only_perform_bind trivial fun now => only_ensure _ _

theorem only_setVersions (nodeId protocolVersion : UInt32) (version : Text) :
    (setVersions nodeId protocolVersion version).Only ServerCall.Quiet := by
  refine only_perform_bind trivial fun _ => ?_
  split_ifs
  · trivial
  · exact ⟨trivial, fun _ => trivial⟩

theorem only_handleAuditRequest (req : Option AuditRequest) :
    (handleAuditRequest req).Only ServerCall.Quiet := by
  cases req with
  | none => trivial
  | some req =>
    refine only_perform_bind trivial fun applied => ?_
    split
    · exact only_perform_bind trivial fun verdict => only_writeMsg trivial
    · exact only_writeMsg trivial

theorem only_proposeOrRedirect (cmd : CoordCommand) :
    (proposeOrRedirect cmd).Only ServerCall.Quiet := by
  refine only_perform_bind trivial fun result => ?_
  split
  · exact only_redirect
  · trivial

theorem only_handlePathRequest (req : Option (UInt32 × UInt32)) :
    (handlePathRequest req).Only ServerCall.Quiet := by
  cases req with
  | none => trivial
  | some req =>
    refine only_perform_bind trivial fun connection => ?_
    cases connection.registered with
    | none => trivial
    | some source => exact only_perform_bind trivial fun now => only_proposeOrRedirect _

theorem only_handleEndpointReport (report : Option (List Text × List Text)) :
    (handleEndpointReport report).Only ServerCall.Quiet := by
  cases report with
  | none => trivial
  | some report =>
    refine only_perform_bind trivial fun connection => ?_
    cases connection.registered with
    | none => trivial
    | some nodeId =>
      dsimp only
      split_ifs
      · trivial
      · exact only_proposeOrRedirect _

theorem only_handleRouteSync (L : ServerCrates)
    (sync : Option (List (Text × Text) × List Text)) :
    (handleRouteSync L sync).Only ServerCall.Quiet := by
  cases sync with
  | none => trivial
  | some sync =>
    refine only_perform_bind trivial fun connection => ?_
    cases connection.registered with
    | none => trivial
    | some nodeId =>
      refine only_perform_bind trivial fun leadership => ?_
      cases leadership with
      | follower leaderEndpoint term => exact only_writeLeaderRedirect _
      | leader =>
        dsimp only
        split
        · exact ⟨trivial, fun _ => trivial⟩
        · trivial

theorem only_storeTelemetry (nodeId : UInt32) (view : Option TelemetryView) :
    (storeTelemetry nodeId view).Only ServerCall.Quiet := by
  cases view with
  | none => trivial
  | some view => exact ⟨trivial, fun _ => trivial⟩

theorem only_pushSnapshot {P : ServerCall → Prop} (hreplicas : P .replicaEndpoints)
    (hread : ∀ q, P (.read q)) (hnetmap : ∀ push, P (.write (.netmapPush push)))
    (hkeys : ∀ msg, P (.write (.keyDist msg))) (networkId : UInt32) :
    (pushSnapshot networkId).Only P := by
  refine only_perform_bind hreplicas fun replicas => only_perform_bind (hread _) fun push => ?_
  refine only_bind (only_writeMsg (hnetmap push)) fun _ => only_perform_bind (hread _) fun ids => ?_
  refine only_each (fun nodeId => only_perform_bind (hread _) fun data => ?_) ids
  cases data with
  | none => trivial
  | some data => exact only_writeMsg (hkeys _)

theorem only_pushPathEvent {P : ServerCall → Prop} (hread : ∀ q, P (.read q))
    (hupdate : ∀ msg, P (.write (.pathUpdate msg)))
    (hwithdraw : ∀ dest id version, P (.write (.pathWithdraw dest id version))) (event : PathEvent) :
    (pushPathEvent event).Only P := by
  cases event with
  | withdraw dest pathId => exact only_writeMsg (hwithdraw _ _ _)
  | update source dest set =>
    refine only_bind (only_collect (fun p => ?_) _) fun _ => only_writeMsg (hupdate _)
    exact only_perform_bind (hread _) fun _ => trivial

theorem only_pushPathEvents {P : ServerCall → Prop} {source : UInt32}
    (htake : P (.takePathEvents source)) (hread : ∀ q, P (.read q))
    (hupdate : ∀ msg, P (.write (.pathUpdate msg)))
    (hwithdraw : ∀ dest id version, P (.write (.pathWithdraw dest id version))) :
    (pushPathEvents source).Only P :=
  only_perform_bind htake fun events =>
    only_each (only_pushPathEvent hread hupdate hwithdraw) events

theorem only_pushRouteMap {P : ServerCall → Prop} {node : UInt32} (htake : P (.takeRouteMapPush node))
    (hwrite : ∀ version entries, P (.write (.routeMap version entries))) :
    (pushRouteMap node).Only P := by
  refine only_perform_bind htake fun push => ?_
  cases push with
  | none => trivial
  | some push => exact only_writeMsg (hwrite _ _)

/-- The call does not register the connection. -/
def NotRegistering (call : ServerCall) : Prop := ∀ n, call ≠ .setRegistered n

theorem pushSnapshot_notRegistering (networkId : UInt32) :
    (pushSnapshot networkId).Only NotRegistering :=
  only_pushSnapshot (fun _ h => nomatch h) (fun _ _ h => nomatch h) (fun _ _ h => nomatch h)
    (fun _ _ h => nomatch h) networkId

theorem pushPathEvents_notRegistering (source : UInt32) :
    (pushPathEvents source).Only NotRegistering :=
  only_pushPathEvents (fun _ h => nomatch h) (fun _ _ h => nomatch h) (fun _ _ h => nomatch h)
    fun _ _ _ _ h => nomatch h

theorem pushRouteMap_notRegistering (node : UInt32) : (pushRouteMap node).Only NotRegistering :=
  only_pushRouteMap (fun _ h => nomatch h) fun _ _ _ h => nomatch h

end Handler

namespace Discipline
variable {L : ServerCrates} {D : Discipline L} {k : ℕ}

structure Serves (D : Discipline L) (k : ℕ) (n : UInt32) (w : ControlWorld) : Prop where
  inv : D.inv w.store.coordinator
  registered : w.store.registered k = some n

theorem registered_of_rely {w w₁ : ControlWorld} (h : (D.rules k).rely w w₁) :
    w₁.store.registered k = w.store.registered k := by
  rw [ControlState.registered, ControlState.registered, ControlState.connection,
    ControlState.connection, h.2.2]

theorem Serves.rely {n : UInt32} {w w₁ : ControlWorld} (hw : D.Serves k n w)
    (h : (D.rules k).rely w w₁) : D.Serves k n w₁ :=
  ⟨h.1, (registered_of_rely h).trans hw.registered⟩

theorem Serves.can {n : UInt32} {w w₁ : ControlWorld} {call : ServerCall} {r : call.Reply}
    (hw : D.Serves k n w) (hcall : ∀ m, call ≠ .setRegistered m)
    (h : (D.rules k).can w call r w₁) : D.Serves k n w₁ := by
  obtain ⟨hinv, env, hexec, -⟩ := h
  exact ⟨hinv, ((ControlState.exec_frame hexec).registered hcall).trans hw.registered⟩

theorem ne_setRegistered {call : ServerCall} (h : call.Plain) (m : UInt32) :
    call ≠ .setRegistered m := by
  rintro rfl
  exact h

theorem keeps_inv (hplain : ∀ k s call, call.Plain → D.allowed k s call) (k : ℕ) :
    (D.rules k).Keeps ServerCall.Plain fun w => D.inv w.store.coordinator :=
  ⟨fun _ _ _ h => h.1, fun w call h _ => hplain k w.store call h, fun _ _ _ _ _ _ h => h.1⟩

theorem keeps_serves (hplain : ∀ k s call, call.Plain → D.allowed k s call) (k : ℕ) (n : UInt32) :
    (D.rules k).Keeps ServerCall.Plain (D.Serves k n) :=
  ⟨fun _ _ hw h => hw.rely h, fun w call h _ => hplain k w.store call h,
    fun _ _ _ _ hcall hw h => hw.can (ne_setRegistered hcall) h⟩

/-- What a discipline asks of the places that are not plain. -/
structure Pushes (D : Discipline L) : Prop where
  plain : ∀ k s call, call.Plain → D.allowed k s call
  registers : ∀ k s n, D.inv s.coordinator → D.allowed k s (.setRegistered n)
  lease : ∀ k s granted expiresAt, D.allowed k s (.write (.lease granted expiresAt))
  snapshot : ∀ k n c (w : ControlWorld), D.inv c → D.near c w.store.coordinator → D.Serves k n w →
    (Handler.pushSnapshot ((c.networkIdOf n).getD 0)).Safe (D.rules k) (fun _ _ => True) w
  events : ∀ k n (w : ControlWorld), D.Serves k n w →
    (Handler.pushPathEvents n).Safe (D.rules k) (fun _ _ => True) w
  routes : ∀ k n (w : ControlWorld), D.Serves k n w →
    (Handler.pushRouteMap n).Safe (D.rules k) (fun _ _ => True) w

/-- The node was looked up in `c`, and the coordinator has changed little since. -/
structure Located (D : Discipline L) (k : ℕ) (c : Coordinator) (n : UInt32) (w : ControlWorld) :
    Prop where
  inv : D.inv c
  near : D.near c w.store.coordinator
  serves : D.Serves k n w

theorem keeps_located (hplain : ∀ k s call, call.Plain → D.allowed k s call) (k : ℕ)
    (c : Coordinator) (n : UInt32) :
    (D.rules k).Keeps (fun call => call.Plain ∧ ∀ env, call.operation env = none)
      (D.Located k c n) := by
  refine ⟨fun w w₁ hw h => ?_, fun w call h _ => hplain k w.store call h.1,
    fun w call r w₁ hcall hw h => ?_⟩
  · exact ⟨hw.inv, D.near_trans _ _ _ hw.near h.2.1, hw.serves.rely h⟩
  · refine ⟨hw.inv, ?_, hw.serves.can (ne_setRegistered hcall.1) h⟩
    obtain ⟨-, env, hexec, -⟩ := h
    rcases ControlState.exec_coordinator hexec with ⟨-, hsame⟩ | ⟨a, ha, -⟩
    · exact hsame ▸ hw.near
    · nomatch (hcall.2 env).symm.trans ha

theorem can_read {w w₁ : ControlWorld} {q : CoordQuery} {r : q.Answer}
    (h : (D.rules k).can w (.read q) r w₁) :
    (∃ o clock, r = w.store.coordinator.answer L o clock q) ∧ w₁.store = w.store := by
  obtain ⟨-, env, hexec, -⟩ := h
  obtain ⟨hr, hstore⟩ := Prod.mk.inj (Option.some.inj hexec)
  exact ⟨⟨env.order, env.clock, hr.symm⟩, hstore.symm⟩

theorem located_of_read {w w₁ : ControlWorld} {n : UInt32} {r : Option UInt32}
    (hw : D.Serves k n w) (h : (D.rules k).can w (.read (.networkIdOf n)) r w₁) :
    r = w.store.coordinator.networkIdOf n ∧ D.Located k w.store.coordinator n w₁ := by
  obtain ⟨⟨o, clock, rfl⟩, hstore⟩ := can_read h
  refine ⟨rfl, hw.inv, ?_, ?_⟩
  · rw [hstore]
    exact D.near_refl _
  · refine hw.can ?_ h
    exact fun _ hm => nomatch hm

theorem can_take {w w₁ : ControlWorld} {n : UInt32} {r : List PathEvent}
    (h : (D.rules k).can w (.takePathEvents n) r w₁) :
    (∀ event ∈ r, ∃ d, w.store.coordinator.domainOfNode n = some d ∧ event ∈ d.paths.queue n) ∧
      ∃ o, w.store.coordinator.perform L.toCrates (o, .unlogged (.takePathEvents n)) =
          some w₁.store.coordinator ∧
        D.guard w.store.coordinator (o, .unlogged (.takePathEvents n)) := by
  obtain ⟨-, env, hexec, hguard⟩ := h
  obtain ⟨hr, hstore⟩ := Prod.mk.inj (Option.some.inj hexec)
  refine ⟨fun event hevent => ?_, env.order, ?_, hguard _ rfl⟩
  · rw [← hr, Coordinator.takePathEvents] at hevent
    cases hd : w.store.coordinator.domainOfNode n with
    | none =>
      rw [hd] at hevent
      nomatch hevent
    | some d =>
      rw [hd] at hevent
      exact ⟨d, rfl, hevent⟩
  · rw [← hstore]
    rfl

theorem serves_of_setRegistered {w w₁ : ControlWorld} {n : UInt32} {r : Unit}
    (h : (D.rules k).can w (.setRegistered n) r w₁) : D.Serves k n w₁ := by
  obtain ⟨hinv, env, hexec, -⟩ := h
  obtain ⟨-, hstore⟩ := Prod.mk.inj (Option.some.inj hexec)
  refine ⟨hinv, ?_⟩
  rw [← hstore, ControlState.registered, ControlState.connection_updateConnection, if_pos rfl]

theorem serves_of_connection {w w₁ : ControlWorld} {n : UInt32} {r : ConnectionState}
    (hw : D.inv w.store.coordinator) (h : (D.rules k).can w .connection r w₁)
    (hr : r.registered = some n) : D.Serves k n w₁ := by
  obtain ⟨-, env, hexec, -⟩ := h
  obtain ⟨rfl, hstore⟩ := Prod.mk.inj (Option.some.inj hexec)
  refine ⟨hstore ▸ hw, ?_⟩
  rw [ControlState.registered, ← hstore]
  exact hr

namespace Pushes
variable (h : D.Pushes)
include h

open Handler

theorem safe_completeResume (ch : ChallengeState) {w : ControlWorld}
    (hw : D.inv w.store.coordinator) :
    (completeResume ch).Safe (D.rules k) (fun _ _ => True) w := by
  refine safe_keep_bind (keeps_inv h.plain k) trivial hw fun same _ _ _ _ _ hw => ?_
  refine safe_ensure_bind (fun _ => ?_) fun _ => trivial
  refine safe_perform_bind fun w₁ hrely => ⟨h.registers k _ _ hrely.1, fun _ w₂ hcan => ?_⟩
  have hkeep := keeps_serves h.plain k ch.nodeId
  refine safe_keep_bind hkeep trivial (serves_of_setRegistered hcan) fun _ _ _ _ _ _ hw => ?_
  refine safe_only_bind hkeep (only_plain (only_setVersions _ _ _)) hw (fun _ w hw => ?_)
    fun _ _ _ => trivial
  refine safe_keep_bind hkeep trivial hw fun networkId w₁ w₂ _ hw hcan _ => ?_
  obtain ⟨rfl, hlocated⟩ := located_of_read hw hcan
  refine safe_keep_bind (keeps_located h.plain k _ _) ⟨trivial, fun _ => rfl⟩ hlocated
    fun binding _ _ _ _ _ hlocated => ?_
  cases binding with
  | none => trivial
  | some binding =>
    refine safe_only_bind (keeps_located h.plain k _ _) (only_writeMsg ⟨trivial, fun _ => rfl⟩)
      hlocated (fun _ w hw => ?_) fun _ _ _ => trivial
    exact h.snapshot k _ _ w hw.inv hw.near hw.serves

theorem safe_completeAdmitted (ip : Option IpAddr) (ch : ChallengeState) (data : RegisterData)
    {w : ControlWorld} (hw : D.inv w.store.coordinator) :
    (completeAdmitted ip ch data).Safe (D.rules k) (fun _ _ => True) w := by
  have hinv := keeps_inv h.plain k
  refine safe_only_bind hinv (only_plain (only_clearFailures ip)) hw (fun _ w hw => ?_)
    fun _ _ _ => trivial
  refine safe_only_bind hinv (only_plain (only_setVersions _ _ _)) hw (fun _ w hw => ?_)
    fun _ _ _ => trivial
  refine safe_keep_bind hinv trivial hw fun drop _ _ _ _ _ hw => ?_
  refine safe_ensure_bind (fun _ => ?_) fun _ => trivial
  refine safe_perform_bind fun w₁ hrely => ⟨h.registers k _ _ hrely.1, fun _ w₂ hcan => ?_⟩
  have hkeep := keeps_serves h.plain k data.nodeId
  refine safe_keep_bind hkeep trivial (serves_of_setRegistered hcan) fun _ _ _ _ _ _ hw => ?_
  refine safe_only_bind hkeep (only_writeMsg trivial) hw (fun _ w hw => ?_) fun _ _ _ => trivial
  refine safe_keep_bind hkeep trivial hw fun networkId w₁ w₂ _ hw hcan _ => ?_
  obtain ⟨rfl, hlocated⟩ := located_of_read hw hcan
  exact h.snapshot k _ _ w₂ hlocated.inv hlocated.near hlocated.serves

theorem safe_completeRegister (ip : Option IpAddr) (ch : ChallengeState) {w : ControlWorld}
    (hw : D.inv w.store.coordinator) :
    (completeRegister ip ch).Safe (D.rules k) (fun _ _ => True) w := by
  have hinv := keeps_inv h.plain k
  refine safe_keep_bind hinv trivial hw fun now _ _ _ _ _ hw => ?_
  refine safe_keep_bind hinv trivial hw fun result _ w _ _ _ hw => ?_
  have hnote : ∀ e : ServerError, (do noteFailure ip; throw e : Handler Unit).Safe (D.rules k)
      (fun _ _ => True) w := fun e =>
    safe_only_bind hinv (only_plain (only_noteFailure ip)) hw (fun _ _ _ => trivial)
      fun _ _ _ => trivial
  split
  · exact h.safe_completeAdmitted ip ch _ hw
  · exact hnote _
  · exact (safe_of_only hinv (only_plain only_redirect) hw).mono fun _ _ _ => trivial
  · exact hnote _

theorem safe_handleChallengeAck (ip : Option IpAddr) (tag : Option Bytes) {w : ControlWorld}
    (hw : D.inv w.store.coordinator) :
    (handleChallengeAck L ip tag).Safe (D.rules k) (fun _ _ => True) w := by
  have hinv := keeps_inv h.plain k
  cases tag with
  | none => trivial
  | some tag =>
    refine safe_keep_bind hinv trivial hw fun connection _ w _ _ _ hw => ?_
    cases connection.challenge with
    | none => trivial
    | some ch =>
      refine safe_only_bind hinv (only_plain (only_checkResumed ch)) hw (fun _ w hw => ?_)
        fun _ _ _ => trivial
      refine safe_only_bind hinv (only_plain (only_verifyChallenge L ch tag)) hw (fun _ w hw => ?_)
        fun _ _ _ => trivial
      refine safe_keep_bind hinv trivial hw fun _ _ w _ _ _ hw => ?_
      split_ifs
      · exact h.safe_completeResume ch hw
      · exact h.safe_completeRegister ip ch hw

theorem safe_heartbeatExchange (n : UInt32) {w : ControlWorld} (hw : D.Serves k n w) :
    (heartbeatExchange n).Safe (D.rules k) (fun _ _ => True) w := by
  have hkeep := keeps_serves h.plain k n
  have hstill : ∀ (w w₁ : ControlWorld), D.Serves k n w → (D.rules k).rely w w₁ → D.Serves k n w₁ :=
    fun _ _ hw hrely => hw.rely hrely
  have hcalls : ∀ (w : ControlWorld) (call : ServerCall) (r : call.Reply) (w₁ : ControlWorld),
      NotRegistering call → D.Serves k n w → (D.rules k).can w call r w₁ →
        D.Serves k n w₁ := fun _ _ _ _ hcall hw hcan => hw.can hcall hcan
  refine safe_keep_bind hkeep trivial hw fun _ _ w _ _ _ hw => ?_
  refine safe_keep_bind hkeep trivial hw fun networkId w₁ w₂ _ hw hcan _ => ?_
  obtain ⟨rfl, hlocated⟩ := located_of_read hw hcan
  refine safe_bind (((h.snapshot k n _ w₂ hlocated.inv hlocated.near hlocated.serves).keep hstill
    hcalls (pushSnapshot_notRegistering _) hlocated.serves).mono fun r w hw => ?_)
  cases r with
  | error e => trivial
  | ok _ =>
    refine safe_bind (((h.events k n w hw.2).keep hstill hcalls (pushPathEvents_notRegistering n)
      hw.2).mono fun r w hw => ?_)
    cases r with
    | error e => trivial
    | ok _ =>
      refine safe_bind ((h.routes k n w hw.2).mono fun r w _ => ?_)
      cases r with
      | error e => trivial
      | ok _ =>
        refine safe_perform_bind fun w₁ _ => ⟨h.plain k _ _ trivial, fun now w₂ _ => ?_⟩
        refine safe_perform_bind fun w₃ _ => ⟨h.lease k _ _ _, fun ok w₄ _ => ?_⟩
        exact safe_ensure (fun _ => trivial) fun _ => trivial

theorem safe_handleHeartbeat (telemetry : Option (Option TelemetryView)) {w : ControlWorld}
    (hw : D.inv w.store.coordinator) :
    (handleHeartbeat telemetry).Safe (D.rules k) (fun _ _ => True) w := by
  cases telemetry with
  | none => trivial
  | some telemetry =>
    refine safe_keep_bind (keeps_inv h.plain k) trivial hw fun connection w₁ w _ hw₁ hcan _ => ?_
    cases hn : connection.registered with
    | none => trivial
    | some n =>
      have hkeep := keeps_serves h.plain k n
      have hserves := serves_of_connection hw₁ hcan hn
      refine safe_keep_bind hkeep trivial hserves fun leadership _ w _ _ _ hw => ?_
      cases leadership with
      | follower leaderEndpoint term =>
        exact (safe_of_only hkeep (only_plain (only_writeLeaderRedirect _)) hw).mono
          fun _ _ _ => trivial
      | leader =>
        refine safe_only_bind hkeep (only_plain (only_storeTelemetry n telemetry)) hw
          (fun _ w hw => ?_) fun _ _ _ => trivial
        refine safe_keep_bind hkeep trivial hw fun accepted _ w _ _ _ hw => ?_
        split_ifs
        · exact h.safe_heartbeatExchange n hw
        · trivial

/-- A discipline that the pushes and the completions keep to holds of every handler. -/
theorem holds : D.Holds := by
  intro k msg w hw
  have hinv := keeps_inv h.plain k
  have hplain : ∀ {p : Handler Unit} {w : ControlWorld}, p.Only ServerCall.Plain →
      D.inv w.store.coordinator → p.Safe (D.rules k) (fun _ _ => True) w :=
    fun hp hw => (safe_of_only hinv hp hw).mono fun _ _ _ => trivial
  refine safe_keep_bind hinv trivial hw fun token _ w _ _ _ hw => ?_
  refine safe_ensure_bind (fun _ => ?_) fun _ => trivial
  refine safe_keep_bind hinv trivial hw fun ip _ w _ _ _ hw => ?_
  cases msg with
  | register req => exact hplain (only_handleRegister L ip req) hw
  | challengeAck tag => exact h.safe_handleChallengeAck ip tag hw
  | heartbeat telemetry => exact h.safe_handleHeartbeat telemetry hw
  | auditRequest req => exact hplain (only_plain (only_handleAuditRequest req)) hw
  | pathRequest req => exact hplain (only_plain (only_handlePathRequest req)) hw
  | endpointReport report => exact hplain (only_plain (only_handleEndpointReport report)) hw
  | routeSync sync => exact hplain (only_plain (only_handleRouteSync L sync)) hw
  | other => trivial

end Pushes

end Discipline

end Rill
