import Rill.MeshEffects
import Rill.NodeDelivery

/-!
# What the events of a node leave alone

The control plane never makes a session. It touches the broadcasts only by a key.
-/

namespace Rill

def ControlEvent.newBroadcastKey : ControlEvent → Option Bytes
  | .keyDist _ _ _ broadcastKey => if broadcastKey.length = 32 then some broadcastKey else none
  | _ => none

def NodeOutput.packet : NodeOutput → Bytes
  | .lan packet => packet
  | .dn42 _ packet => packet
  | .tailnet _ packet => packet
  | .mesh _ frame => frame

namespace Node
variable {σ : Type} {N : Snow σ} {C : Crypto} {checks : Bool} {n : Node σ} {env : NodeEnv}

open MeshData (Inert Shrinks)

theorem requestPathsFor_eq (n : Node σ) (dest : UInt32) :
    ∃ pendingPathRequests, n.requestPathsFor dest = { n with pendingPathRequests } := by
  unfold requestPathsFor
  split_ifs
  · exact ⟨_, rfl⟩
  · exact ⟨n.pendingPathRequests, rfl⟩

theorem foldl_insertRoute_eq {α : Type} (source : RouteSource) (nodeId : α → UInt32)
    (cidr : α → Text) (as : List α) (n : Node σ) :
    ∃ engine, as.foldl (fun n a => n.insertRoute source (nodeId a) (cidr a)) n =
      { n with engine } := by
  induction as generalizing n with
  | nil => exact ⟨n.engine, rfl⟩
  | cons a as ih =>
    have hstep : ∃ engine, n.insertRoute source (nodeId a) (cidr a) = { n with engine } := by
      unfold insertRoute
      split
      · exact ⟨n.engine, rfl⟩
      · exact ⟨_, rfl⟩
    obtain ⟨engine, hengine⟩ := hstep
    rw [List.foldl_cons, hengine]
    exact ih { n with engine }

theorem applyEntry_eq (n : Node σ) (entry : NetmapNode) :
    ∃ engine pendingPathRequests, n.applyEntry entry =
      { n with
        mesh := n.mesh.setPeerStatic entry.nodeId entry.staticPubkey
        engine, pendingPathRequests } := by
  obtain ⟨engine, hroutes⟩ := foldl_insertRoute_eq .mesh (fun _ => entry.nodeId) (fun route => route)
    entry.routes { n with mesh := n.mesh.setPeerStatic entry.nodeId entry.staticPubkey }
  have hrequest : ∀ m : Node σ, ∃ pendingPathRequests,
      (if 2 ≤ entry.protocolVersion then m.requestPathsFor entry.nodeId else m) =
        { m with pendingPathRequests } := by
    intro m
    split_ifs
    · exact m.requestPathsFor_eq entry.nodeId
    · exact ⟨m.pendingPathRequests, rfl⟩
  unfold applyEntry
  dsimp only
  obtain ⟨pending, hpending⟩ := hrequest (if entry.offline = true then _ else _)
  rw [hpending, hroutes]
  split_ifs
  · exact ⟨n.engine.removeDynDn42Node entry.nodeId, pending, rfl⟩
  · exact ⟨engine, pending, rfl⟩

theorem foldl_applyEntry_eq (entries : List NetmapNode) (n : Node σ) :
    ∃ mesh engine pendingPathRequests, Inert n.mesh mesh ∧
      entries.foldl applyEntry n = { n with mesh, engine, pendingPathRequests } := by
  induction entries generalizing n with
  | nil => exact ⟨n.mesh, n.engine, n.pendingPathRequests, .refl n.mesh, rfl⟩
  | cons entry entries ih =>
    obtain ⟨engine, pending, heq⟩ := n.applyEntry_eq entry
    have hstatic : Inert n.mesh (n.mesh.setPeerStatic entry.nodeId entry.staticPubkey) :=
      .of_sessions rfl rfl
    rw [List.foldl_cons, heq]
    obtain ⟨mesh, engine', pending', hmesh, hrest⟩ := ih
      { n with
        mesh := n.mesh.setPeerStatic entry.nodeId entry.staticPubkey
        engine, pendingPathRequests := pending }
    exact ⟨mesh, engine', pending', hstatic.trans hmesh, hrest⟩

theorem removeStale_inert (n : Node σ) (peer : UInt32) :
    Inert n.mesh (n.removeStale peer).mesh := by
  have hstatic : Inert n.mesh (n.mesh.removePeerStatic peer) := .of_sessions rfl rfl
  exact (hstatic.trans (MeshData.dropSession_inert _ peer)).trans
    (MeshData.removePathsFor_inert _ peer)

theorem not_hasSession_dropSession (d : MeshData σ) (peer : UInt32) :
    (d.dropSession peer).hasSession peer = false := by
  rw [MeshData.hasSession, MeshData.dropSession, Table.getElem?_erase_self]
  rfl

theorem removeStale_hasSession (n : Node σ) (peer : UInt32) :
    (n.removeStale peer).mesh.hasSession peer = false := by
  rw [← Bool.not_eq_true]
  intro h
  have hdrop := (MeshData.removePathsFor_inert _ peer).sessions peer h
  rw [not_hasSession_dropSession] at hdrop
  nomatch hdrop

theorem foldl_removeStale_eq (stale : List UInt32) (n : Node σ) :
    ∃ mesh engine, Inert n.mesh mesh ∧ (∀ peer ∈ stale, mesh.hasSession peer = false) ∧
      stale.foldl removeStale n = { n with mesh, engine } := by
  induction stale generalizing n with
  | nil => exact ⟨n.mesh, n.engine, .refl n.mesh, by simp, rfl⟩
  | cons peer stale ih =>
    obtain ⟨mesh, engine, hmesh, hgone, heq⟩ := ih (n.removeStale peer)
    refine ⟨mesh, engine, (n.removeStale_inert peer).trans hmesh, fun other hother => ?_, heq⟩
    rcases List.mem_cons.mp hother with rfl | hother
    · rw [← Bool.not_eq_true]
      intro h
      have hsession := hmesh.sessions other h
      rw [removeStale_hasSession] at hsession
      nomatch hsession
    · exact hgone other hother

theorem applyEntries_eq (n : Node σ) (netmap : NetmapData) :
    ∃ mesh engine pendingPathRequests defaultRoute, Inert n.mesh mesh ∧
      n.applyEntries netmap =
        { n with
          mesh, engine, pendingPathRequests, defaultRoute
          acl := netmap.acl.getD {} } := by
  obtain ⟨mesh, engine, pending, hmesh, heq⟩ := foldl_applyEntry_eq (n.otherEntries netmap)
    { n with engine := n.engine.resetMeshRoutes, acl := netmap.acl.getD {} }
  unfold applyEntries
  dsimp only
  rw [heq]
  exact ⟨mesh, engine, pending, _, hmesh, rfl⟩

theorem mem_stalePeers {fresh : Table UInt32 Unit} {peer : UInt32}
    (hold : (n.netmapPeers[peer]?).isSome = true) (hfresh : (fresh[peer]?).isSome = false) :
    peer ∈ n.stalePeers fresh := by
  obtain ⟨u, hu⟩ := Option.isSome_iff_exists.mp hold
  have hcontains : fresh.contains peer = false := by
    rw [Std.ExtTreeMap.contains_eq_isSome_getElem?, hfresh]
  have hget : (n.netmapPeers.filter fun peer _ => !fresh.contains peer)[peer]? = some u := by
    rw [Std.ExtTreeMap.getElem?_filter', hu]
    simp [hcontains]
  exact List.mem_map.mpr ⟨(peer, u), Std.ExtTreeMap.mem_toList_iff_getElem?_eq_some.mpr hget, rfl⟩

theorem applyNetmap_spec (n : Node σ) (netmap : NetmapData) :
    Inert n.mesh (n.applyNetmap netmap).mesh ∧
      (∀ peer : UInt32, (n.applyNetmap netmap).mesh.hasSession peer = true →
        (n.netmapPeers[peer]?).isSome = true → ((n.freshPeers netmap)[peer]?).isSome = true) ∧
      (n.applyNetmap netmap).acl = netmap.acl.getD {} := by
  obtain ⟨mesh, engine, pending, route, hmesh, hentries⟩ := n.applyEntries_eq netmap
  obtain ⟨mesh', engine', hstale, hgone, heq⟩ :=
    foldl_removeStale_eq (n.stalePeers (n.freshPeers netmap)) (n.applyEntries netmap)
  have hresult : (n.applyNetmap netmap).mesh = mesh' ∧
      (n.applyNetmap netmap).acl = (n.applyEntries netmap).acl := by
    unfold applyNetmap
    dsimp only
    rw [heq]
    exact ⟨rfl, rfl⟩
  rw [hresult.1, hresult.2]
  rw [hentries] at hstale ⊢
  refine ⟨hmesh.trans hstale, fun peer hsession hold => ?_, rfl⟩
  by_contra hfresh
  have hnone := hgone peer (mem_stalePeers hold (Bool.eq_false_of_not_eq_true hfresh))
  exact Bool.false_ne_true (hnone.symm.trans hsession)

theorem onPaths_inert (n : Node σ) (destination : UInt32) (candidates : List PathCandidateMsg)
    (source : UInt32) : Inert n.mesh (n.onPaths destination candidates source).mesh := by
  have hkeys := Inert.foldl (f := fun (mesh : MeshData σ) (c : PathCandidateMsg) =>
    if c.keyPath.length = 32 then mesh.setKeyPath c.pathId c.keyPath else mesh)
    (fun d c => by split_ifs <;> exact .of_sessions rfl rfl) candidates n.mesh
  have hforward := Inert.foldl (f := fun (mesh : MeshData σ) (c : PathCandidateMsg) =>
    mesh.setForwardPath c.entry) fun _ _ => .of_sessions rfl rfl
  unfold onPaths
  dsimp only
  split
  · exact hkeys.trans (.of_sessions rfl rfl)
  · split
    · exact hkeys
    · exact hkeys.trans (hforward _ _)

theorem onRevoked_spec (n : Node σ) (peer : UInt32) : Inert n.mesh (n.onRevoked peer).mesh ∧
    (n.onRevoked peer).mesh.hasSession peer = false := by
  have htables : Inert (n.mesh.dropSession peer)
      (((n.mesh.dropSession peer).removePeerStatic peer).removeKeyDst peer) := .of_sessions rfl rfl
  have hrest := htables.trans (MeshData.removePathsFor_inert _ peer)
  refine ⟨(MeshData.dropSession_inert n.mesh peer).trans hrest, ?_⟩
  rw [← Bool.not_eq_true]
  intro h
  have hdrop := hrest.sessions peer h
  rw [not_hasSession_dropSession] at hdrop
  nomatch hdrop

theorem onRouteMap_eq (n : Node σ) (entries : List (Text × UInt32)) :
    ∃ engine, n.onRouteMap entries = { n with engine } :=
  foldl_insertRoute_eq .dynDn42 Prod.snd Prod.fst _ { n with engine := n.engine.resetDynDn42Routes }

theorem handleControlEvent_mesh (n : Node σ) (ev : ControlEvent) :
    Shrinks n.mesh (n.handleControlEvent ev).mesh ∧ (n.handleControlEvent ev).mesh.broadcasts =
      ev.newBroadcastKey.elim n.mesh.broadcasts fun key => (some key, ∅, ∅) := by
  have hinert : ∀ {d : MeshData σ}, Inert n.mesh d →
      Shrinks n.mesh d ∧ d.broadcasts = n.mesh.broadcasts := fun h => ⟨h.toShrinks, h.broadcasts⟩
  cases ev with
  | registered nodeId networkId binding logId =>
    rw [handleControlEvent, onRegistered]
    cases n.cfg.verifyBinding <;> exact ⟨.of_sessions rfl, rfl⟩
  | netmap netmap => exact hinert (n.applyNetmap_spec netmap).1
  | keyDist toNodeId key keyVersion broadcastKey =>
    rw [handleControlEvent, onKeyDist, ControlEvent.newBroadcastKey]
    split_ifs <;> exact ⟨.of_sessions rfl, rfl⟩
  | revoked nodeId => exact hinert (n.onRevoked_spec nodeId).1
  | paths destination candidates source =>
    exact hinert (n.onPaths_inert destination candidates source)
  | pathWithdrawn destination pathId => exact hinert (n.mesh.withdrawPath_inert destination pathId)
  | routeMap entries =>
    obtain ⟨engine, heq⟩ := n.onRouteMap_eq entries
    rw [handleControlEvent, heq]
    exact ⟨.of_sessions rfl, rfl⟩
  | _ => exact ⟨.of_sessions rfl, rfl⟩

theorem handleControlEvent_policy (n : Node σ) (ev : ControlEvent) :
    (n.handleControlEvent ev).netmapPeers =
      (match ev with
      | .netmap netmap => n.freshPeers netmap
      | .revoked nodeId => n.netmapPeers.erase nodeId
      | _ => n.netmapPeers) ∧
    (n.handleControlEvent ev).acl =
      match ev with
      | .netmap netmap => netmap.acl.getD {}
      | _ => n.acl := by
  cases ev with
  | netmap netmap => exact ⟨rfl, (n.applyNetmap_spec netmap).2.2⟩
  | keyDist toNodeId key keyVersion broadcastKey =>
    rw [handleControlEvent, onKeyDist]
    split_ifs <;> exact ⟨rfl, rfl⟩
  | paths destination candidates source =>
    rw [handleControlEvent, onPaths]
    dsimp only
    split
    · exact ⟨rfl, rfl⟩
    · split <;> exact ⟨rfl, rfl⟩
  | routeMap entries =>
    obtain ⟨engine, heq⟩ := n.onRouteMap_eq entries
    rw [handleControlEvent, heq]
    exact ⟨rfl, rfl⟩
  | _ => exact ⟨rfl, rfl⟩

theorem transitVia_mesh {via : RouteVia} {info : PacketInfo} {packet : Bytes}
    {r : Bool × List NodeOutput × Node σ}
    (h : n.transitVia C checks env via .mesh info packet = some r) :
    r = (false, [], n) ∨ ∃ output : NodeOutput, output.packet = packet ∧ r = (true, [output], n) := by
  cases via with
  | dn42 name =>
    simp only [transitVia] at h
    split at h
    · exact Or.inl (Option.some.inj h).symm
    · split_ifs at h
      · exact Or.inr ⟨_, rfl, (Option.some.inj h).symm⟩
      · exact Or.inl (Option.some.inj h).symm
  | mesh peer =>
    obtain ⟨_, -, rfl⟩ := Option.map_eq_some_iff.mp h
    exact Or.inl rfl
  | tailnet id =>
    simp only [transitVia] at h
    split at h
    · exact Or.inl (Option.some.inj h).symm
    · split_ifs at h
      · exact Or.inr ⟨_, rfl, (Option.some.inj h).symm⟩
      · exact Or.inl (Option.some.inj h).symm
  | direct device => exact Or.inl (Option.some.inj h).symm

theorem forwardTransit_mesh {packet : Bytes} {r : Bool × List NodeOutput × Node σ}
    (h : n.forwardTransit C checks env packet .mesh = some r) :
    r = (false, [], n) ∨ ∃ output : NodeOutput, output.packet = packet ∧ r = (true, [output], n) := by
  unfold forwardTransit at h
  obtain ⟨parsed, -, h⟩ := Option.bind_eq_some_iff.mp h
  rcases parsed with e | info
  · exact Or.inl (Option.some.inj h).symm
  · dsimp only at h
    split at h
    · exact Or.inl (Option.some.inj h).symm
    · obtain ⟨best, -, h⟩ := Option.bind_eq_some_iff.mp h
      rcases best with _ | entry
      · exact Or.inl (Option.some.inj h).symm
      · exact transitVia_mesh h

theorem noteMulticastWrite_eq (n : Node σ) (env : NodeEnv) (info : PacketInfo) :
    ∃ recentMulticastWrites, n.noteMulticastWrite env info = { n with recentMulticastWrites } := by
  unfold noteMulticastWrite
  dsimp only
  split_ifs
  · exact ⟨_, rfl⟩
  · exact ⟨n.recentMulticastWrites, rfl⟩

theorem writeLan_eq {payload : Bytes} {r : List NodeOutput × Node σ}
    (h : n.writeLan env payload = some r) :
    r = ([], n) ∧ n.tun = none ∨ ∃ mtu packet recentMulticastWrites, n.tun = some mtu ∧
      clampForLan mtu payload = some packet ∧
        r = (tunWrite mtu packet, { n with recentMulticastWrites }) := by
  cases htun : n.tun with
  | none =>
    rw [writeLan, htun] at h
    exact Or.inl ⟨(Option.some.inj h).symm, rfl⟩
  | some mtu =>
    rw [writeLan, htun] at h
    obtain ⟨packet, hclamp, h⟩ := Option.bind_eq_some_iff.mp h
    obtain ⟨parsed, -, h⟩ := Option.bind_eq_some_iff.mp h
    rcases parsed with e | info
    · refine Or.inr ⟨mtu, packet, n.recentMulticastWrites, rfl, hclamp, ?_⟩
      rw [← htun]
      exact (Option.some.inj h).symm
    · obtain ⟨writes, hwrites⟩ := n.noteMulticastWrite_eq env info
      refine Or.inr ⟨mtu, packet, writes, rfl, hclamp, ?_⟩
      rw [← htun, ← hwrites]
      exact (Option.some.inj h).symm

theorem handleMeshEvent_eq {ev : IncomingEvent} {r : Option Bytes × Node σ}
    (h : n.handleMeshEvent checks ev = some r) :
    ∃ peerHeartbeats, r.2 = { n with peerHeartbeats } := by
  cases ev with
  | data source payload =>
    obtain ⟨_, -, rfl⟩ := Option.map_eq_some_iff.mp h
    exact ⟨_, rfl⟩
  | established peer => cases h; exact ⟨_, rfl⟩
  | broadcast source payload => cases h; exact ⟨_, rfl⟩
  | heartbeat source => cases h; exact ⟨_, rfl⟩
  | _ => cases h; exact ⟨n.peerHeartbeats, rfl⟩

theorem passOn_eq {payload : Bytes} {r : List NodeOutput × Node σ}
    (h : n.passOn C checks env payload = some r) :
    ∃ recentMulticastWrites, r.2 = { n with recentMulticastWrites } := by
  obtain ⟨_, htransit, h⟩ := Option.bind_eq_some_iff.mp h
  rcases forwardTransit_mesh htransit with rfl | ⟨output, -, rfl⟩
  · obtain ⟨_, hwrite, h⟩ := Option.bind_eq_some_iff.mp h
    cases h
    rcases writeLan_eq hwrite with ⟨rfl, -⟩ | ⟨_, _, writes, -, -, rfl⟩
    · exact ⟨n.recentMulticastWrites, rfl⟩
    · exact ⟨writes, rfl⟩
  · cases h
    exact ⟨n.recentMulticastWrites, rfl⟩

theorem deliver_eq {ev : IncomingEvent} {r : List NodeOutput × Node σ}
    (h : n.deliver C checks env ev = some r) : ∃ peerHeartbeats recentMulticastWrites,
      r.2 = { n with peerHeartbeats, recentMulticastWrites } := by
  obtain ⟨⟨payload, n'⟩, hev, h⟩ := Option.bind_eq_some_iff.mp h
  obtain ⟨beats, rfl⟩ := handleMeshEvent_eq hev
  rcases payload with _ | payload
  · cases h
    exact ⟨beats, n.recentMulticastWrites, rfl⟩
  · obtain ⟨writes, heq⟩ := passOn_eq h
    exact ⟨beats, writes, heq⟩

end Node

end Rill
