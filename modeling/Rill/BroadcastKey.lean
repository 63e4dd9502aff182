import Rill.Membership
import Rill.PathConfinement

/-!
# Who is given the broadcast key

A node is written the keys of all nodes of its network, one message each, and the message about a
node holds the broadcast key if that node can broadcast. Whether the receiver can is not asked. So
the key stays with nodes that can broadcast as long as the nodes of a network agree on it.
-/

namespace Rill

/-- The broadcast key is none of the other keys that are handed out. -/
structure Crypto.BroadcastApart (C : Crypto) : Prop where
  node : ∀ (m m' : Key32) (id : UInt32),
    C.deriveKeyDst m.toList id = C.deriveKeyDst m'.toList 0xFFFFFFFF → id = 0xFFFFFFFF
  path : ∀ (m m' : Key32) (pathId : UInt64) (pathEpoch : UInt32),
    C.deriveKeyPath m.toList pathId pathEpoch ≠ C.deriveKeyDst m'.toList 0xFFFFFFFF
  blank : ∀ m : Key32, C.deriveKeyDst m.toList 0xFFFFFFFF ≠ []
  zero : ∀ m : Key32, C.deriveKeyDst m.toList 0xFFFFFFFF ≠ zeroKey

def NodeEntry.broadcasts (e : NodeEntry) : Bool := e.capabilities &&& capabilityBroadcast != 0

namespace NetworkDomain

/-- All nodes can broadcast, or none. -/
def Agrees (d : NetworkDomain) : Prop :=
  ∃ b, ∀ (id : UInt32) (e : NodeEntry), d.registry.entries[id]? = some e → e.broadcasts = b

/-- The network keeps its nodes as they are registered. -/
structure Retains (d d' : NetworkDomain) : Prop extends d.Lasts d' where
  entries : ∀ (id : UInt32) (e : NodeEntry), d.registry.entries[id]? = some e →
    d'.registry.entries[id]? = some e

theorem Retains.refl (d : NetworkDomain) : d.Retains d := ⟨⟨rfl, fun _ h => h⟩, fun _ _ h => h⟩

theorem Retains.trans {d d' d'' : NetworkDomain} (h : d.Retains d') (h' : d'.Retains d'') :
    d.Retains d'' :=
  ⟨⟨h'.networkId.trans h.networkId, fun id hid => h'.has id (h.has id hid)⟩,
    fun id e he => h'.entries id e (h.entries id e he)⟩

end NetworkDomain

namespace Coordinator
variable {c c' : Coordinator} {L : Crates} {o : IterOrder} {op : CoordOp} {d d' : NetworkDomain}

/-- A node is registered like the others of its network, and not under the id of broadcasts. -/
def JoinsAlike (c : Coordinator) (a : IterOrder × CoordOp) : Prop :=
  match a.2 with
  | .command (.register authKey _ capabilities _ _) _ => c.nextNodeId ≠ 0xFFFFFFFF ∧
      ∀ d ∈ c.domains, (d.registry.authKeys[authKey]?).isSome →
        ∀ e ∈ d.registry.entries.toList,
          e.2.broadcasts = (capabilities &&& capabilityBroadcast != 0)
  | _ => True

def NoRevoke (a : IterOrder × CoordOp) : Prop :=
  match a.2 with
  | .command (.revoke _ _) _ => False
  | _ => True

instance (c : Coordinator) (a : IterOrder × CoordOp) : Decidable (c.JoinsAlike a) := by
  rcases a with ⟨_, ⟨⟨⟩, _⟩ | ⟨⟨⟩⟩ | ⟨⟨⟩⟩⟩ <;> dsimp only [JoinsAlike] <;> infer_instance

instance (a : IterOrder × CoordOp) : Decidable (NoRevoke a) := by
  rcases a with ⟨_, ⟨⟨⟩, _⟩ | ⟨⟨⟩⟩ | ⟨⟨⟩⟩⟩ <;> dsimp only [NoRevoke] <;> infer_instance

/-- Networks are of one kind, and no node has the id of broadcasts. -/
structure BroadcastReady (c : Coordinator) : Prop extends c.Numbered where
  agrees : ∀ d ∈ c.domains, d.Agrees
  unicast : ∀ d ∈ c.domains, d.registry.entries[(0xFFFFFFFF : UInt32)]? = none

theorem Evolves.joins (h : c.Evolves L o op d d') (hmem : d ∈ c.domains)
    (hguard : c.JoinsAlike (o, op)) {id : UInt32} {e : NodeEntry}
    (he : d'.registry.entries[id]? = some e) (hnew : d.registry.entries[id]? ≠ some e) :
    id ≠ 0xFFFFFFFF ∧ id = c.nextNodeId ∧
      ∀ (id' : UInt32) (e' : NodeEntry), d'.registry.entries[id']? = some e' →
        e'.broadcasts = e.broadcasts := by
  obtain ⟨authKey, spec, ⟨_, _, capabilities, _, _, _, rfl, -, rfl⟩, hadm, hid⟩ :=
    (h.entry he).resolve_left hnew
  obtain ⟨hunicast, halike⟩ := hguard
  refine ⟨hid ▸ hunicast, hid.symm, fun id' e' he' => ?_⟩
  rcases h.entry he' with hold | ⟨_, _, ⟨_, _, _, _, _, _, hop, -, rfl⟩, -, -⟩
  · have hkey : (d.registry.authKeys[authKey]?).isSome :=
      Option.isSome_iff_exists.mpr ⟨spec, hadm.authorized⟩
    exact halike d hmem hkey (id', e') (Std.ExtTreeMap.mem_toList_iff_getElem?_eq_some.mpr hold)
  · injection hop with hcmd
    injection hcmd with _ _ hcapabilities
    rw [NodeEntry.broadcasts, NodeEntry.broadcasts, newEntry, newEntry, hcapabilities]

theorem Evolves.agrees (h : c.Evolves L o op d d') (hmem : d ∈ c.domains) (hd : d.Agrees)
    (hguard : c.JoinsAlike (o, op)) : d'.Agrees := by
  by_cases hnew : ∃ (id : UInt32) (e : NodeEntry), d'.registry.entries[id]? = some e ∧
      d.registry.entries[id]? ≠ some e
  · obtain ⟨id, e, he, hne⟩ := hnew
    exact ⟨e.broadcasts, (h.joins hmem hguard he hne).2.2⟩
  · push Not at hnew
    obtain ⟨b, hb⟩ := hd
    exact ⟨b, fun id e he => hb id e (hnew id e he)⟩

theorem Evolves.retains (h : c.Evolves L o op d d') (hmem : d ∈ c.domains)
    (hfresh : c.FreshId (o, op)) (hop : NoRevoke (o, op)) : d.Retains d' := by
  have hlasts : d.Lasts d' := h.lasts fun nodeId now logId heq => by
    subst heq
    exact hop
  refine ⟨hlasts, fun id e he => ?_⟩
  obtain ⟨e', he'⟩ := Option.isSome_iff_exists.mp (hlasts.has id (Option.isSome_of_mem he))
  rcases h.entry he' with hold | ⟨_, _, ⟨_, _, _, _, _, _, rfl, -, rfl⟩, -, hid⟩
  · rw [he', ← hold, he]
  · -- the id that is handed out is free
    have hfree : d.registry.entries[id]? = none := by
      rw [← hid]
      exact hfresh d hmem
    nomatch hfree.symm.trans he

theorem perform_broadcastReady {a : IterOrder × CoordOp} (hc : c.BroadcastReady)
    (hguard : c.FreshId a ∧ c.JoinsAlike a) (h : c.perform L a = some c') : c'.BroadcastReady := by
  obtain ⟨o, op⟩ := a
  refine ⟨perform_numbered hc.toNumbered hguard.1 h,
    perform_forall h hc.agrees fun _ hmem _ hd hevolves => hevolves.agrees hmem hd hguard.2,
    perform_forall h hc.unicast fun d hmem d' hd hevolves => ?_⟩
  cases he : d'.registry.entries[(0xFFFFFFFF : UInt32)]? with
  | none => rfl
  | some e =>
    have hnew : d.registry.entries[(0xFFFFFFFF : UInt32)]? ≠ some e := by
      rw [hd]
      exact nofun
    exact absurd rfl (hevolves.joins hmem hguard.2 he hnew).1

theorem perform_retains {a : IterOrder × CoordOp} (hfresh : c.FreshId a) (hop : NoRevoke a)
    (h : c.perform L a = some c') : List.Forall₂ NetworkDomain.Retains c.domains c'.domains := by
  obtain ⟨o, op⟩ := a
  exact perform_forall₂ h fun d hmem d' hevolves => hevolves.retains hmem hfresh hop

theorem broadcastReady_fresh (config : MachineConfig)
    (hids : (config.networks.map fun n => networkIdFor n.1).Nodup) :
    (freshCoordinator config).BroadcastReady := by
  refine ⟨numbered_fresh config hids, ?_, ?_⟩
  · rw [freshCoordinator_eq]
    refine List.forall_mem_map.mpr fun n _ => ⟨false, fun id e he => ?_⟩
    simp [NetworkDomain.new, Registry.new] at he
  · rw [freshCoordinator_eq]
    refine List.forall_mem_map.mpr fun n _ => ?_
    simp [NetworkDomain.new, Registry.new]

end Coordinator

/-- The keys a message hands out. -/
def ServerMessage.keys : ServerMessage → List Bytes
  | .keyDist msg => [msg.key, msg.broadcastKey]
  | .pathUpdate msg => msg.candidates.map CandidatePath.keyPath
  | _ => []

/-- The message holds a broadcast key only if the node of the connection can broadcast. -/
def ControlState.BroadcastConfined (L : ServerCrates) (k : ℕ) (s : ControlState)
    (msg : ServerMessage) : Prop :=
  ∀ keys : KeyManager, keys.broadcastKey L.crypto ∈ msg.keys →
    ∃ n e, s.registered k = some n ∧ s.coordinator.nodeEntry n = some e ∧ e.broadcasts = true

def broadcastDiscipline (L : ServerCrates) : Discipline L where
  inv := Coordinator.BroadcastReady
  guard c a := c.FreshId a ∧ c.JoinsAlike a
  inv_step _ _ _ := Coordinator.perform_broadcastReady
  near c c' := List.Forall₂ NetworkDomain.Retains c.domains c'.domains
  calm _ a := Coordinator.NoRevoke a
  near_refl _ := List.forall₂_same.mpr fun d _ => .refl d
  near_trans _ _ _ := forall₂_trans fun _ _ _ => .trans
  near_step _ _ _ _ hguard := Coordinator.perform_retains hguard.1
  allowed k s
    | .write msg => s.BroadcastConfined L k msg
    | _ => True

section
variable {L : ServerCrates} {k : ℕ} {n : UInt32} {s : ControlState}

theorem broadcastDiscipline_keyDist (hC : L.crypto.BroadcastApart) {c₀ c₁ c₂ : Coordinator}
    {o : IterOrder} {id : UInt32} {data : KeyDistData} (hc₀ : (broadcastDiscipline L).inv c₀)
    (hc₁ : (broadcastDiscipline L).Follows c₀ c₁) (hc₂ : (broadcastDiscipline L).Follows c₁ c₂)
    (hlater : (broadcastDiscipline L).Later k n c₂ s)
    (hid : id ∈ (c₁.netmapSnapshot o ((c₀.networkIdOf n).getD 0)).map NodeInfo.nodeId)
    (hdata : c₂.keyDist L.crypto id = some data) :
    s.BroadcastConfined L k (.keyDist data.message) := by
  have hlasts : ∀ d d' : NetworkDomain, d.Retains d' → d.Lasts d' := fun _ _ h => h.toLasts
  obtain ⟨e, he, rfl⟩ := List.mem_map.mp hid
  obtain ⟨d₁, hd₁, hn, hhas, -⟩ := hc₀.mem_netmap_of_lasts hc₁.inv.toNumbered hlasts hc₁.near he
  obtain ⟨d₂, hretains, hfound₂⟩ :=
    hc₂.inv.orderly.domain_of_lasts hc₂.inv.apart hlasts hc₂.near hd₁
  have hd₂ := hfound₂ _ hhas
  have hmem := Coordinator.mem_of_domainOfNode hd₂
  rw [Coordinator.keyDist, hd₂, Option.bind_some] at hdata
  obtain ⟨entry, hentry, rfl⟩ := Option.map_eq_some_iff.mp hdata
  intro keys hkey
  rcases List.mem_cons.mp hkey with hkey | hkey
  · -- the key of a node is no broadcast key
    have hbroadcast := hC.node _ _ _ hkey.symm
    rw [hbroadcast] at hentry
    nomatch (hc₂.inv.unicast d₂ hmem).symm.trans hentry
  · rw [List.mem_singleton, KeyDistData.message] at hkey
    dsimp only at hkey
    split_ifs at hkey with hbit
    · obtain ⟨d', hretains', hfound⟩ := hlater.follows.inv.orderly.domain_of_lasts
        hlater.follows.inv.apart hlasts hlater.follows.near hmem
      obtain ⟨en, hen⟩ := Option.isSome_iff_exists.mp (hretains.has n hn)
      obtain ⟨b, hb⟩ := hc₂.inv.agrees d₂ hmem
      refine ⟨n, en, hlater.registered, ?_, ?_⟩
      · rw [Coordinator.nodeEntry, hfound n (hretains.has n hn), Option.bind_some]
        exact hretains'.entries n en hen
      · rw [hb n en hen, ← hb e.nodeId entry hentry]
        exact hbit
    · exact absurd hkey (hC.blank _)

theorem broadcastDiscipline_update (hC : L.crypto.BroadcastApart) {source dest : UInt32}
    {set : PathSet} {candidates : List CandidatePath}
    (hread : ∀ a ∈ candidates, ∃ p ∈ set.candidates, ∃ c₁,
      a = Discipline.readCandidate L c₁ source p) :
    s.BroadcastConfined L k (.pathUpdate
      { destinationNodeId := dest, candidates, pathVersion := set.version
        sourceNodeId := source }) := by
  intro keys hkey
  obtain ⟨a, ha, heq⟩ := List.mem_map.mp hkey
  obtain ⟨p, -, c₁, rfl⟩ := hread a ha
  change c₁.keyPathFor L.crypto source p.pathId p.pathEpoch = _ at heq
  rw [Coordinator.keyPathFor] at heq
  cases hd : c₁.domainOfNode source with
  | none =>
    rw [hd] at heq
    exact absurd heq.symm (hC.zero keys.masterKey)
  | some d =>
    rw [hd] at heq
    exact absurd heq (hC.path d.keys.masterKey keys.masterKey p.pathId p.pathEpoch)

end

theorem broadcastDiscipline_holds {L : ServerCrates} (hC : L.crypto.BroadcastApart) :
    (broadcastDiscipline L).Holds := by
  have hother : ∀ (k : ℕ) (s : ControlState) (msg : ServerMessage), msg.keys = [] →
      s.BroadcastConfined L k msg := by
    intro k s msg hmsg keys hkey
    rw [hmsg] at hkey
    nomatch hkey
  refine Discipline.Permits.holds
    { plain := fun k s call hcall => ?_
      registers := fun _ _ _ _ => trivial
      lease := fun k s _ _ => hother k s _ rfl
      take := fun _ _ _ => trivial
      calmTake := fun _ _ _ => trivial
      calmRoutes := fun _ _ _ => trivial
      netmap := fun k _ _ _ s _ _ _ _ _ => hother k s _ rfl
      keyDist := fun k n c₀ c₁ c₂ s o id data => broadcastDiscipline_keyDist hC
      update := fun k n c₀ d s source dest set candidates _ _ _ _ hread => ?_
      withdraw := fun k _ _ _ s _ _ _ _ _ _ => hother k s _ rfl
      routes := fun k _ _ s _ _ _ _ _ _ => hother k s _ rfl }
  · cases call with
    | write msg =>
      cases msg with
      | keyDist | pathUpdate => exact hcall.elim
      | _ => exact hother k s _ rfl
    | _ => trivial
  · refine broadcastDiscipline_update hC fun a ha => ?_
    obtain ⟨p, hp, c₁, -, -, rfl⟩ := hread a ha
    exact ⟨p, hp, c₁, rfl⟩

/-- In a run that hands out free ids, registers nodes that can broadcast and nodes that cannot in
different networks, and sees no revocation while a message is handled, broadcast keys are given to
nodes that can broadcast alone. -/
theorem broadcast_keys_confined {L : ServerCrates} (hC : L.crypto.BroadcastApart) {c : Coordinator}
    (hc : c.BroadcastReady) {acts : List ControlAct}
    (hguard : ControlSystem.Always L c (fun s a => s.Operates (fun c op => c.FreshId op ∧
      c.JoinsAlike op ∧ (s.meanwhile a = true → Coordinator.NoRevoke op)) a) acts) :
    ControlSystem.Always L c (fun s a => ∀ k msg, s.writes a = some (k, msg) →
      s.world.store.BroadcastConfined L k msg) acts := by
  have hmeets := Discipline.meets (broadcastDiscipline_holds hC) hc
    (Transition.meets_imp (fun s a h op hop =>
      have hop' := h op hop
      ⟨⟨hop'.1, hop'.2.1⟩, hop'.2.2⟩) hguard)
  refine Transition.meets_imp (fun s a h k msg hwrites => ?_) hmeets
  obtain ⟨next, htask⟩ := ControlSystem.writes_eq hwrites
  exact h k _ next htask

section Lab

/-- Keys that begin with what they are derived for. -/
def taggedServer : ServerCrates :=
  { clearServer with
    crypto := { Crypto.clear 4096 with
      hkdf := fun _ ikm info n => (info ++ ikm ++ List.replicate n 0).take n } }

theorem take_taggedServer (ikm info : Bytes) {n : ℕ} (h : n ≤ info.length) (hn : n ≤ 32) :
    (taggedServer.crypto.hkdf none ikm info 32).take n = info.take n := by
  change ((info ++ ikm ++ List.replicate 32 0).take 32).take n = info.take n
  rw [List.take_take, min_eq_left hn, List.append_assoc, List.take_append_of_le_length h]

theorem taggedServer_apart : taggedServer.crypto.BroadcastApart where
  node m m' id h := by
    have h' := congrArg (List.take 11) h
    rw [Crypto.deriveKeyDst, Crypto.deriveKeyDst,
      take_taggedServer _ _ (Nat.le_refl 11) (by decide),
      take_taggedServer _ _ (Nat.le_refl 11) (by decide),
      List.take_of_length_le (Nat.le_refl 11), List.take_of_length_le (Nat.le_refl 11)] at h'
    exact u32be_injective (List.append_cancel_left h')
  path m m' pathId pathEpoch h := by
    have h' := congrArg (List.take 5) h
    rw [Crypto.deriveKeyDst, Crypto.deriveKeyPath, take_taggedServer _ _ (by simp) (by decide),
      take_taggedServer _ _ (by decide) (by decide)] at h'
    nomatch h'
  blank m h := by
    have h' := congrArg (List.take 1) h
    rw [Crypto.deriveKeyDst, take_taggedServer _ _ (by decide) (by decide)] at h'
    nomatch h'
  zero m h := by
    have h' := congrArg (List.take 1) h
    rw [Crypto.deriveKeyDst, take_taggedServer _ _ (by decide) (by decide)] at h'
    nomatch h'

/-- A node that can broadcast is registered by others; another one registers on connection 0. -/
def labBroadcast (capabilities : UInt32) (calls : ℕ) : List ControlAct :=
  labOperate (labOrder, .configure (.addAuthKeySpec labKey { policy := .reusable })) ::
    labOperate (labCommand 1 (.register labKey (.replicate 32 9) capabilityBroadcast [] 100)) ::
    .outside .accept :: labHandle 0 (labRegister 1 capabilities) 9 ++ labHandle 0 (labAck 0) calls

/-- The node that cannot broadcast is written the broadcast key with the key of the one that can. -/
theorem lab_broadcast_key_leaks :
    taggedServer.crypto.BroadcastApart ∧ ∃ s msg, ControlSystem.reach taggedServer
        (freshCoordinator labConfig.machineConfig) (labBroadcast 0 18) = some s ∧
      s.writes labStep = some (0, msg) ∧ s.registered 0 = some 2 ∧
      (∃ d ∈ s.coordinator.domains, d.keys.broadcastKey taggedServer.crypto ∈ msg.keys) ∧
      ∀ e, s.coordinator.nodeEntry 2 = some e → e.broadcasts = false := by
  refine ⟨taggedServer_apart, ?_⟩
  have hcheck : (ControlSystem.reach taggedServer (freshCoordinator labConfig.machineConfig)
      (labBroadcast 0 18)).any (fun s => (s.writes labStep).any fun out =>
        out.1 = 0 ∧ s.registered 0 = some 2 ∧
        (∃ d ∈ s.coordinator.domains, d.keys.broadcastKey taggedServer.crypto ∈ out.2.keys) ∧
        ∀ e ∈ s.coordinator.nodeEntry 2, e.broadcasts = false) = true := by
    decide +kernel
  obtain ⟨s, hs, hrest⟩ := (Option.any_eq_true _ _).mp hcheck
  obtain ⟨⟨k, msg⟩, hout, hmsg⟩ := (Option.any_eq_true _ _).mp hrest
  obtain ⟨rfl, hreg, hkey, hentry⟩ := of_decide_eq_true hmsg
  exact ⟨s, msg, hs, hout, hreg, hkey, hentry⟩

/-- Both nodes can broadcast. -/
theorem lab_broadcast_key_shared :
    (ControlSystem.reach taggedServer (freshCoordinator labConfig.machineConfig)
      (labBroadcast capabilityBroadcast 19)).isSome ∧
    ControlSystem.Always taggedServer (freshCoordinator labConfig.machineConfig)
      (fun s a => ∀ k msg, s.writes a = some (k, msg) →
        s.world.store.BroadcastConfined taggedServer k msg) (labBroadcast capabilityBroadcast 19) :=
  ⟨by decide +kernel, broadcast_keys_confined taggedServer_apart
    (Coordinator.broadcastReady_fresh labConfig.machineConfig (by decide))
    (by decide +kernel)⟩

end Lab

end Rill
