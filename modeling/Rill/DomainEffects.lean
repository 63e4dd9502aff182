import Rill.PathEffects
import Rill.RegistryInvariant

/-!
# What an operation does to one network

Every operation of a coordinator acts on its networks one by one. `Evolves` lists what can happen to
a network: a node comes or goes, paths are asked for, the relays change, a node takes the events
that wait for it or reports routes. Anything else keeps the nodes, the relays and the paths of the
network and adds no route. Invariants of a network are proved over these cases.
-/

namespace Rill

section UpdateFirst
variable {α : Type} {R : α → α → Prop} {p : α → Bool} {f g : α → α} {l : List α}

theorem forall₂_updateFirst_map (hg : ∀ a, p (g a) = p a) (hl : ∀ a ∈ l, R a (g a))
    (hf : ∀ a, l.find? p = some a → R a (f (g a))) :
    List.Forall₂ R l (updateFirst p f (l.map g)) := by
  induction l with
  | nil => exact .nil
  | cons a l ih =>
    have htail : ∀ b ∈ l, R b (g b) := fun b hb => hl b (List.mem_cons_of_mem a hb)
    rw [List.map_cons, updateFirst, hg]
    by_cases ha : p a = true
    · rw [if_pos ha]
      refine .cons (hf a (List.find?_cons_of_pos ha)) (List.forall₂_map_right_iff.mpr ?_)
      exact List.forall₂_same.mpr htail
    · rw [if_neg ha]
      refine .cons (hl a List.mem_cons_self) (ih htail fun b hb => hf b ?_)
      rwa [List.find?_cons_of_neg ha]

theorem forall₂_updateFirst (hl : ∀ a ∈ l, R a a) (hf : ∀ a, l.find? p = some a → R a (f a)) :
    List.Forall₂ R l (updateFirst p f l) := by
  have h := forall₂_updateFirst_map (g := id) (fun _ => rfl) hl hf
  rwa [List.map_id] at h

end UpdateFirst

theorem forall_of_forall₂ {α β : Type} {R : α → β → Prop} {P : α → Prop} {Q : β → Prop} {l : List α}
    {l' : List β} (h : List.Forall₂ R l l') (hP : ∀ a ∈ l, P a) (hQ : ∀ a b, R a b → P a → Q b) :
    ∀ b ∈ l', Q b := by
  induction h with
  | nil => exact fun b hb => nomatch hb
  | cons hab _ ih =>
    obtain ⟨ha, hl⟩ := List.forall_mem_cons.mp hP
    exact List.forall_mem_cons.mpr ⟨hQ _ _ hab ha, ih hl⟩

theorem exists_of_forall₂ {α β : Type} {R : α → β → Prop} {l : List α} {l' : List β} {a : α}
    (h : List.Forall₂ R l l') (ha : a ∈ l) : ∃ b ∈ l', R a b := by
  induction h with
  | nil => nomatch ha
  | cons hab _ ih =>
    rcases List.mem_cons.mp ha with rfl | ha
    · exact ⟨_, List.mem_cons_self, hab⟩
    · obtain ⟨b, hb, hR⟩ := ih ha
      exact ⟨b, List.mem_cons_of_mem _ hb, hR⟩

theorem forall₂_trans {α : Type} {R : α → α → Prop} (hR : ∀ a b c, R a b → R b c → R a c)
    {l l' l'' : List α} (h : List.Forall₂ R l l') (h' : List.Forall₂ R l' l'') :
    List.Forall₂ R l l'' := by
  induction h generalizing l'' with
  | nil => exact h'
  | cons hab _ ih =>
    cases h' with
    | cons hbc h' => exact .cons (hR _ _ _ hab hbc) (ih h')

/-- What a network holds of its nodes. -/
structure Holdings where
  name : Text
  networkId : UInt32
  entries : Table UInt32 NodeEntry
  pubkeys : Table Key32 UInt32
  roster : List UInt32
  paths : PathService

namespace NetworkDomain

def holdings (d : NetworkDomain) : Holdings where
  name := d.name
  networkId := d.networkId
  entries := d.registry.entries
  pubkeys := d.registry.pubkeys
  roster := d.roster
  paths := d.paths

/-- The network keeps its nodes, relays and paths and gets no route. -/
structure Keeps (d d' : NetworkDomain) : Prop where
  holdings : d'.holdings = d.holdings
  routes : ∀ key ∈ d'.routeMap.entries, key ∈ d.routeMap.entries

section
variable {d d' : NetworkDomain} (h : d.Keeps d')
include h

theorem Keeps.networkId : d'.networkId = d.networkId := congrArg Holdings.networkId h.holdings

theorem Keeps.entries : d'.registry.entries = d.registry.entries :=
  congrArg Holdings.entries h.holdings

theorem Keeps.roster : d'.roster = d.roster := congrArg Holdings.roster h.holdings

theorem Keeps.paths : d'.paths = d.paths := congrArg Holdings.paths h.holdings

end

theorem Keeps.refl (d : NetworkDomain) : d.Keeps d := ⟨rfl, fun _ h => h⟩

theorem Keeps.trans {d d' d'' : NetworkDomain} (h : d.Keeps d') (h' : d'.Keeps d'') : d.Keeps d'' :=
  ⟨h'.holdings.trans h.holdings, fun key hkey => h.routes key (h'.routes key hkey)⟩

end NetworkDomain

namespace RouteMapService

theorem mem_withdrawNode {m : RouteMapService} {node : UInt32} {key : Prefix × UInt32}
    (h : key ∈ (m.withdrawNode node).2.entries) : key ∈ m.entries ∧ key.2 ≠ node := by
  have hentries : (m.withdrawNode node).2.entries = m.entries.filter fun key _ => key.2 != node := by
    rw [withdrawNode]
    split_ifs
    · rfl
    · rfl
  rw [hentries] at h
  obtain ⟨hmem, hne⟩ := Std.ExtTreeMap.mem_filter.mp h
  rw [Std.ExtTreeMap.getKey_eq] at hne
  exact ⟨hmem, bne_iff_ne.mp hne⟩

theorem entries_announce (m : RouteMapService) (node : UInt32) (coverage : List Prefix)
    (maxPerNode : ℕ) (now : UInt64) (out : RouteSyncOutcome) (route : Prefix) (nextHop : Text) :
    (m.announce node coverage maxPerNode now out route nextHop).2.entries = m.entries ∨
      (m.announce node coverage maxPerNode now out route nextHop).2.entries =
        m.entries.insert (route, node) nextHop := by
  rw [announce]
  dsimp only
  split_ifs
  · exact Or.inl rfl
  · exact Or.inl rfl
  · exact Or.inl rfl
  · exact Or.inl rfl
  · exact Or.inr rfl
  · exact Or.inl rfl
  · exact Or.inr rfl

theorem entries_removeEntry (m : RouteMapService) (key : Prefix × UInt32) :
    (m.removeEntry key).2.entries = m.entries ∨
      (m.removeEntry key).2.entries = m.entries.erase key := by
  rw [removeEntry]
  split
  · exact Or.inl rfl
  · exact Or.inr rfl

theorem entries_withdraw (m : RouteMapService) (node : UInt32) (now : UInt64)
    (out : RouteSyncOutcome) (route : Prefix) :
    (m.withdraw node now out route).2.entries = m.entries ∨
      (m.withdraw node now out route).2.entries = m.entries.erase (route, node) := by
  rw [withdraw]
  dsimp only
  split_ifs
  · exact Or.inl rfl
  · exact ((m.flip (route, node) now).2.damp (route, node) now).entries_removeEntry (route, node)
  · exact (m.flip (route, node) now).2.entries_removeEntry (route, node)
  · contradiction
  · exact m.entries_removeEntry (route, node)

theorem mem_applySync {m : RouteMapService} {node : UInt32} {announced : List (Prefix × Text)}
    {withdrawn coverage : List Prefix} {maxPerNode : ℕ} {now : UInt64} {key : Prefix × UInt32}
    (h : key ∈ (m.applySync node announced withdrawn coverage maxPerNode now).2.entries) :
    key ∈ m.entries ∨ key.2 = node := by
  have hannounced : ∀ st : RouteSyncOutcome × RouteMapService, key ∈ (announced.foldl
      (fun (st : RouteSyncOutcome × RouteMapService) a =>
        st.2.announce node coverage maxPerNode now st.1 a.1 a.2) st).2.entries →
      key ∈ st.2.entries ∨ key.2 = node := by
    clear h
    induction announced with
    | nil => exact fun st h => Or.inl h
    | cons a announced ih =>
      intro st h
      rcases ih _ h with h | h
      · rcases st.2.entries_announce node coverage maxPerNode now st.1 a.1 a.2 with heq | heq
        · exact Or.inl (heq ▸ h)
        · rw [heq, Std.ExtTreeMap.mem_insert, Std.compare_eq_iff_eq] at h
          exact h.elim (fun hkey => Or.inr (congrArg Prod.snd hkey).symm) Or.inl
      · exact Or.inr h
  have hwithdrawn : ∀ st : RouteSyncOutcome × RouteMapService, key ∈ (withdrawn.foldl
      (fun (st : RouteSyncOutcome × RouteMapService) route => st.2.withdraw node now st.1 route)
        st).2.entries → key ∈ st.2.entries := by
    clear h
    induction withdrawn with
    | nil => exact fun st h => h
    | cons route withdrawn ih =>
      intro st h
      rcases st.2.entries_withdraw node now st.1 route with heq | heq
      · exact heq ▸ ih _ h
      · have hmem := ih _ h
        rw [heq] at hmem
        exact Std.ExtTreeMap.mem_of_mem_erase hmem
  rw [applySync] at h
  dsimp only at h
  split_ifs at h
  · exact hannounced _ (hwithdrawn _ h)
  · exact hannounced _ (hwithdrawn _ h)

end RouteMapService

namespace Coordinator
variable (c : Coordinator) (L : Crates) (o : IterOrder)

/-- What an operation does to a network of the coordinator. -/
inductive Evolves : CoordOp → NetworkDomain → NetworkDomain → Prop
  | keep {op : CoordOp} {d d' : NetworkDomain} (h : d.Keeps d') : Evolves op d d'
  | admits {op : CoordOp} {authKey : Text} {spec : AuthKeySpec} {e : NodeEntry} {d : NetworkDomain}
      (hop : c.Registers L op authKey e) (hadm : c.roll.Admission authKey spec e d.seat) :
      Evolves op d { d with registry := (d.registry.insertEntry e).consume authKey spec }
  | revoke {nodeId : UInt32} {now : UInt64} {logId : LogId} {d : NetworkDomain}
      (hd : (d.registry.entries[nodeId]?).isSome) :
      Evolves (.command (.revoke nodeId now) logId) d
        ((d.flushRevokeRotation now).revoke (o.paths d.networkId) nodeId now)
  | request {source dest max : UInt32} {now : UInt64} {logId : LogId} {d : NetworkDomain}
      (hsource : c.domainOfNode source = some d) (hdest : c.domainOfNode dest = some d) :
      Evolves (.command (.requestPaths source dest max now) logId) d
        { d with paths := (d.paths.request source dest max now).2 }
  | relays {roster : List UInt32} {now : UInt64} {logId : LogId} {d : NetworkDomain} :
      Evolves (.command (.setRelayRoster d.networkId roster now) logId) d
        (d.applyRelayRoster (o.paths d.networkId) roster now).2
  | take {source : UInt32} {d : NetworkDomain} (hsource : c.domainOfNode source = some d) :
      Evolves (.unlogged (.takePathEvents source)) d
        { d with paths := (d.paths.takeEvents source).2 }
  | sync {nodeId : UInt32} {announced : List (Prefix × Text)} {withdrawn : List Prefix}
      {clock : UInt64} {d : NetworkDomain} (hnode : c.domainOfNode nodeId = some d) :
      Evolves (.unlogged (.applyRouteSync nodeId announced withdrawn clock)) d
        { d with routeMap := (d.routeMap.applySync nodeId announced withdrawn
          (coverage L d nodeId) routeMapMaxPerNode clock).2 }

variable {c L o} {c' : Coordinator} {op : CoordOp}

theorem Evolves.entry {d d' : NetworkDomain} (h : c.Evolves L o op d d') {id : UInt32}
    {e : NodeEntry} (he : d'.registry.entries[id]? = some e) :
    d.registry.entries[id]? = some e ∨ ∃ authKey spec, c.Registers L op authKey e ∧
      c.roll.Admission authKey spec e d.seat ∧ e.nodeId = id := by
  cases h with
  | keep hkeep => exact Or.inl (hkeep.entries ▸ he)
  | @admits _ authKey spec new _ hop hadm =>
    rw [Registry.getElem?_admits] at he
    split_ifs at he with hid
    · cases he
      exact Or.inr ⟨authKey, spec, hop, hadm, hid⟩
    · exact Or.inl he
  | @revoke nodeId now _ _ hd =>
    have hentries := (d.flushRevokeRotation now).registry.getElem?_revoke nodeId id
    rw [NetworkDomain.revoke, hentries] at he
    split_ifs at he
    exact Or.inl he
  | request _ _ => exact Or.inl he
  | relays => exact Or.inl he
  | take _ => exact Or.inl he
  | sync _ => exact Or.inl he

theorem Evolves.entry_lost {d d' : NetworkDomain} (h : c.Evolves L o op d d') {id : UInt32}
    {e : NodeEntry} (he : d.registry.entries[id]? = some e) (hid : d'.registry.entries[id]? = none) :
    ∃ now logId, op = .command (.revoke id now) logId ∧
      d' = (d.flushRevokeRotation now).revoke (o.paths d.networkId) id now := by
  have hsame : d'.registry.entries = d.registry.entries → False := by
    intro heq
    rw [heq, he] at hid
    nomatch hid
  cases h with
  | keep hkeep => exact (hsame hkeep.entries).elim
  | admits _ _ =>
    rw [Registry.getElem?_admits] at hid
    split_ifs at hid
    rw [he] at hid
    nomatch hid
  | @revoke nodeId now logId _ hd =>
    have hentries := (d.flushRevokeRotation now).registry.getElem?_revoke nodeId id
    rw [NetworkDomain.revoke, hentries] at hid
    split_ifs at hid with heq
    · obtain rfl := heq
      exact ⟨now, logId, rfl, rfl⟩
    · nomatch he.symm.trans hid
  | request _ _ => exact (hsame rfl).elim
  | relays => exact (hsame rfl).elim
  | take _ => exact (hsame rfl).elim
  | sync _ => exact (hsame rfl).elim

theorem evolves_refl (d : NetworkDomain) : c.Evolves L o op d d := .keep (.refl d)

theorem evolves_self : List.Forall₂ (c.Evolves L o op) c.domains c.domains :=
  List.forall₂_same.mpr fun d _ => evolves_refl d

theorem evolves_of_keeps (h : List.Forall₂ NetworkDomain.Keeps c.domains c'.domains) :
    List.Forall₂ (c.Evolves L o op) c.domains c'.domains := h.imp fun _ _ hd => .keep hd

theorem keeps_updateFirst {p : NetworkDomain → Bool} {f : NetworkDomain → NetworkDomain}
    (hf : ∀ d, NetworkDomain.Keeps d (f d)) (l : List NetworkDomain) :
    List.Forall₂ NetworkDomain.Keeps l (updateFirst p f l) :=
  forall₂_updateFirst (fun d _ => .refl d) fun d _ => hf d

section Related
variable {R : NetworkDomain → NetworkDomain → Prop}

theorem forall₂_updateDomainOf (c : Coordinator) (hrefl : ∀ d, R d d)
    {f : NetworkDomain → NetworkDomain} {nodeId : UInt32}
    (hf : ∀ d, c.domainOfNode nodeId = some d → R d (f d)) :
    List.Forall₂ R c.domains (c.updateDomainOf nodeId f).domains := by
  rw [updateDomainOf]
  cases hnet : c.networkOfNode nodeId with
  | none => exact List.forall₂_same.mpr fun d _ => hrefl d
  | some networkId =>
    refine forall₂_updateFirst (fun d _ => hrefl d) fun d hd => hf d ?_
    rw [domainOfNode, hnet]
    exact hd

theorem forall₂_foldl_withdrawRoutes (c : Coordinator) (hrefl : ∀ d, R d d)
    (htrans : ∀ d d' d'', R d d' → R d' d'' → R d d'') {ids : List UInt32}
    (hids : ∀ id ∈ ids, ∀ d, R d (d.withdrawRoutes id)) :
    List.Forall₂ R c.domains
      (ids.foldl (fun c id => c.updateDomainOf id fun d => d.withdrawRoutes id) c).domains := by
  induction ids generalizing c with
  | nil => exact List.forall₂_same.mpr fun d _ => hrefl d
  | cons id ids ih =>
    obtain ⟨hid, hids⟩ := List.forall_mem_cons.mp hids
    exact forall₂_trans htrans (c.forall₂_updateDomainOf hrefl fun d _ => hid d) (ih _ hids)

end Related

theorem keeps_updateDomainOf {f : NetworkDomain → NetworkDomain}
    (hf : ∀ d, NetworkDomain.Keeps d (f d)) (c : Coordinator) (nodeId : UInt32) :
    List.Forall₂ NetworkDomain.Keeps c.domains (c.updateDomainOf nodeId f).domains :=
  c.forall₂_updateDomainOf .refl fun d _ => hf d

theorem evolves_updateDomainOf {f : NetworkDomain → NetworkDomain} {nodeId : UInt32}
    (hf : ∀ d, c.domainOfNode nodeId = some d → c.Evolves L o op d (f d)) :
    List.Forall₂ (c.Evolves L o op) c.domains (c.updateDomainOf nodeId f).domains :=
  c.forall₂_updateDomainOf evolves_refl hf

theorem keeps_withdrawRoutes (d : NetworkDomain) (nodeId : UInt32) :
    d.Keeps (d.withdrawRoutes nodeId) :=
  ⟨rfl, fun _ hkey => (RouteMapService.mem_withdrawNode hkey).1⟩

theorem keeps_foldl_withdrawRoutes (ids : List UInt32) (c : Coordinator) :
    List.Forall₂ NetworkDomain.Keeps c.domains
      (ids.foldl (fun c id => c.updateDomainOf id fun d => d.withdrawRoutes id) c).domains :=
  c.forall₂_foldl_withdrawRoutes .refl (fun _ _ _ => .trans) fun id _ d => keeps_withdrawRoutes d id

theorem keeps_flushRevokeRotations (c : Coordinator) (now : UInt64) :
    List.Forall₂ NetworkDomain.Keeps c.domains (c.flushRevokeRotations now).2.domains := by
  refine List.forall₂_map_right_iff.mpr (List.forall₂_same.mpr fun d _ => ?_)
  exact ⟨rfl, fun _ hkey => hkey⟩

theorem keeps_heartbeat (c : Coordinator) (o : IterOrder) (nodeId : UInt32) (now : UInt64) :
    List.Forall₂ NetworkDomain.Keeps c.domains (c.heartbeat o nodeId now).2.domains := by
  obtain ⟨liveness, ids, next, rfl, hc⟩ := c.heartbeat_eq o nodeId now
  have hnext := forall₂_trans (fun _ _ _ => .trans) (c.keeps_flushRevokeRotations now)
    (keeps_foldl_withdrawRoutes ids { (c.flushRevokeRotations now).2 with liveness })
  rcases hc with hc | hc
  · rwa [hc]
  · rw [hc]
    exact hnext

theorem keeps_recordRtt (results : List (UInt32 × Option UInt64)) (d : NetworkDomain) :
    d.Keeps (results.foldl (fun d r => d.recordRtt r.1 r.2) d) := by
  obtain ⟨relayRtt, relayMiss, heq⟩ := d.foldl_recordRtt_eq results
  rw [heq]
  exact ⟨rfl, fun _ hkey => hkey⟩

variable (c L o) in
theorem runLocal_evolves (op : LocalOp) :
    List.Forall₂ (c.Evolves L o (.unlogged op)) c.domains (c.runLocal L o op).domains := by
  cases op with
  | heartbeat nodeId now => exact evolves_of_keeps (c.keeps_heartbeat o nodeId now)
  | markOffline nodeId =>
    rw [runLocal, markOffline]
    split_ifs
    · exact evolves_of_keeps (keeps_updateDomainOf (fun d => keeps_withdrawRoutes d nodeId)
        { c with liveness := (c.liveness.markOffline nodeId).2 } nodeId)
    · exact evolves_self
  | storeTelemetry nodeId view clock => exact evolves_self
  | takePathEvents source => exact evolves_updateDomainOf fun d hd => .take hd
  | applyRouteSync nodeId announced withdrawn clock =>
    exact evolves_updateDomainOf fun d hd => .sync hd
  | takeRouteMapPush nodeId =>
    rw [runLocal, takeRouteMapPush]
    cases c.domainOfNode nodeId with
    | none => exact evolves_self
    | some d =>
      dsimp only
      split_ifs
      · exact evolves_self
      · refine evolves_of_keeps (c.keeps_updateDomainOf ?_ nodeId)
        exact fun d => ⟨rfl, fun _ hkey => hkey⟩
  | setProtocolVersion nodeId version => exact evolves_self
  | setBuildVersion nodeId version => exact evolves_self
  | recordRelayRttRound networkId results =>
    exact evolves_of_keeps (keeps_updateFirst (keeps_recordRtt results) c.domains)
  | resetLivenessOnTakeover now => exact evolves_self

theorem keeps_configure (c : Coordinator) (op : ConfigOp) :
    List.Forall₂ NetworkDomain.Keeps c.domains (c.configure op).domains := by
  have hself : List.Forall₂ NetworkDomain.Keeps c.domains c.domains :=
    List.forall₂_same.mpr fun d _ => .refl d
  have hregistry : ∀ (name : Text) (g : Registry → Registry), Registry.Reconfigures g →
      List.Forall₂ NetworkDomain.Keeps c.domains
        (c.updateNamed name fun d => { d with registry := g d.registry }).domains := by
    intro name g hg
    refine keeps_updateFirst ?_ c.domains
    intro d
    refine ⟨?_, fun _ hkey => hkey⟩
    rw [NetworkDomain.holdings, hg.entries, hg.pubkeys]
    rfl
  cases op with
  | addAuthKeySpec key spec =>
    rw [configure, addAuthKeySpec]
    cases AuthKey.parse key with
    | error e => exact hself
    | ok parsed => exact hregistry parsed.1 _ (Registry.reconfigures_addAuthKeySpec key spec)
  | removeAuthKey key =>
    rw [configure, removeAuthKey]
    cases AuthKey.parse key with
    | error e => exact hself
    | ok parsed => exact hregistry parsed.1 _ (Registry.reconfigures_removeAuthKey key)
  | setAnnounceWhitelist network whitelist =>
    exact hregistry network _ (Registry.reconfigures_setAnnounceWhitelist whitelist)
  | setAclPolicy network policy =>
    rw [configure, setAclPolicy]
    split_ifs
    · refine keeps_updateFirst ?_ c.domains
      exact fun d => ⟨rfl, fun _ hkey => hkey⟩
    · exact hself
  | setRelayConstraints network cfg =>
    refine keeps_updateFirst ?_ c.domains
    exact fun d => ⟨rfl, fun _ hkey => hkey⟩
  | setExitAllow network allow =>
    have hnext : List.Forall₂ NetworkDomain.Keeps c.domains
        (c.updateNamed network fun d => { d with exitAllow := allow.toFinset }).domains := by
      refine keeps_updateFirst ?_ c.domains
      exact fun d => ⟨rfl, fun _ hkey => hkey⟩
    rw [configure, setExitAllow]
    cases c.domainByName network with
    | none => exact hself
    | some d =>
      dsimp only [Option.elim_some]
      split_ifs
      · exact hnext
      · exact hnext

theorem domainOfNode_eq {source dest : UInt32} {sd dd : NetworkDomain}
    (hs : c.domainOfNode source = some sd) (hd : c.domainOfNode dest = some dd)
    (h : sd.networkId = dd.networkId) : sd = dd := by
  obtain ⟨n, -, hn⟩ := Option.bind_eq_some_iff.mp hs
  obtain ⟨m, -, hm⟩ := Option.bind_eq_some_iff.mp hd
  have hsn : sd.networkId = n := by simpa using List.find?_some hn
  have hdm : dd.networkId = m := by simpa using List.find?_some hm
  rw [← hsn, h, hdm, hm] at hn
  exact (Option.some.inj hn).symm

theorem mem_of_domainOfNode {nodeId : UInt32} {d : NetworkDomain}
    (h : c.domainOfNode nodeId = some d) : d ∈ c.domains := by
  obtain ⟨n, -, hn⟩ := Option.bind_eq_some_iff.mp h
  exact List.mem_of_find?_eq_some hn

theorem domainByNetworkId_networkId {nodeId : UInt32} {d : NetworkDomain}
    (h : c.domainOfNode nodeId = some d) : c.domainByNetworkId d.networkId = some d := by
  obtain ⟨n, -, hn⟩ := Option.bind_eq_some_iff.mp h
  have hid : d.networkId = n := by simpa using List.find?_some hn
  rwa [hid]

variable (c L o) in
theorem requestPaths_evolves (source dest max : UInt32) (now : UInt64) (logId : LogId) :
    List.Forall₂ (c.Evolves L o (.command (.requestPaths source dest max now) logId)) c.domains
      (c.requestPaths L source dest max now).2.domains := by
  rw [requestPaths]
  split
  · next sd dd hs hd =>
    split_ifs with hne
    · exact evolves_self
    · obtain rfl := domainOfNode_eq hs hd (not_ne_iff.mp hne)
      refine forall₂_updateFirst (fun d _ => evolves_refl d) fun d hfound => ?_
      cases (domainByNetworkId_networkId hs).symm.trans hfound
      exact .request hs hd
  · exact evolves_self

variable (c L o) in
theorem applyRelayRoster_evolves (networkId : UInt32) (roster : List UInt32) (now : UInt64)
    (logId : LogId) :
    List.Forall₂ (c.Evolves L o (.command (.setRelayRoster networkId roster now) logId)) c.domains
      (c.applyRelayRoster o networkId roster now).2.domains := by
  have hnext : List.Forall₂ (c.Evolves L o (.command (.setRelayRoster networkId roster now) logId))
      c.domains (c.updateNetwork networkId fun d =>
        (d.applyRelayRoster (o.paths networkId) roster now).2).domains := by
    refine forall₂_updateFirst (fun d _ => evolves_refl d) fun d hfound => ?_
    obtain rfl : d.networkId = networkId := by simpa using List.find?_some hfound
    exact .relays
  rw [applyRelayRoster]
  cases c.domainByNetworkId networkId with
  | none => exact evolves_self
  | some d =>
    dsimp only
    split_ifs
    · exact hnext
    · exact hnext

variable (c L o) in
theorem revoke_evolves (nodeId : UInt32) (now : UInt64) (logId : LogId) (issued : UInt64 × UInt64) :
    List.Forall₂ (c.Evolves L o (.command (.revoke nodeId now) logId)) c.domains
      (c.revoke o nodeId now issued).domains := by
  rw [revoke]
  split_ifs
  · refine forall₂_updateFirst_map 
      (g := fun d : NetworkDomain => d.flushRevokeRotation now) ?_ ?_ ?_
    · exact fun d => rfl
    · exact fun d _ => .keep ⟨rfl, fun _ hkey => hkey⟩
    · exact fun d hd => .revoke (List.find?_some (p := fun d : NetworkDomain =>
        d.registry.entries[nodeId]?.isSome) hd)
  · exact evolves_of_keeps (c.keeps_flushRevokeRotations now)

/-- What an operation does to each network. -/
theorem perform_evolves (h : c.perform L (o, op) = some c') :
    List.Forall₂ (c.Evolves L o op) c.domains c'.domains := by
  cases op with
  | unlogged op =>
    cases h
    exact c.runLocal_evolves L o op
  | configure op =>
    cases h
    exact evolves_of_keeps (c.keeps_configure op)
  | command cmd logId =>
    obtain ⟨⟨r, next⟩, happly, rfl⟩ := Option.map_eq_some_iff.mp h
    cases cmd with
    | register authKey staticPubkey capabilities routes now =>
      obtain ⟨⟨out, c'⟩, hreg, hout⟩ := Option.map_eq_some_iff.mp happly
      cases hout
      rcases register_cases hreg with ⟨err, -, rfl⟩ |
        ⟨d, id, e, found, -, -, -, -, -, -, -, -, rfl⟩ | ⟨d, spec, found, hd, hkey, hnew, rfl, -, -⟩
      · exact evolves_self
      · exact evolves_self
      · refine forall₂_updateFirst (fun d _ => evolves_refl d) fun d' hfound => ?_
        cases hd.found.symm.trans hfound
        exact .admits ⟨d, staticPubkey, capabilities, routes, now, logId, rfl, hd, rfl⟩
          (admission_of_admits hd hkey hnew)
    | revoke nodeId now =>
      cases happly
      exact c.revoke_evolves L o nodeId now logId _
    | setEndpoints nodeId localAddrs seen =>
      cases happly
      exact evolves_self
    | requestPaths source dest max now =>
      cases happly
      exact c.requestPaths_evolves L o source dest max now logId
    | setRelayRoster networkId roster now =>
      cases happly
      exact c.applyRelayRoster_evolves L o networkId roster now logId
    | rotateMasterKey network newMasterKey =>
      cases happly
      refine evolves_of_keeps (keeps_updateFirst ?_ c.domains)
      exact fun d => ⟨rfl, fun _ hkey => hkey⟩
    | flushRevokeRotations now =>
      cases happly
      exact evolves_of_keeps (c.keeps_flushRevokeRotations now)

theorem perform_forall₂ {R : NetworkDomain → NetworkDomain → Prop}
    (h : c.perform L (o, op) = some c')
    (hR : ∀ d ∈ c.domains, ∀ d', c.Evolves L o op d d' → R d d') :
    List.Forall₂ R c.domains c'.domains := by
  have hboth : List.Forall₂ (fun d d' => d ∈ c.domains ∧ c.Evolves L o op d d') c.domains c'.domains :=
    (List.forall₂_and_left _ _).mpr ⟨fun _ hd => hd, perform_evolves h⟩
  exact hboth.imp fun d d' ⟨hd, hevolves⟩ => hR d hd d' hevolves

theorem perform_forall {P : NetworkDomain → Prop} (h : c.perform L (o, op) = some c')
    (hP : ∀ d ∈ c.domains, P d)
    (hstep : ∀ d ∈ c.domains, ∀ d', P d → c.Evolves L o op d d' → P d') :
    ∀ d ∈ c'.domains, P d := by
  have hpairs : List.Forall₂ (fun _ d' => P d') c.domains c'.domains :=
    perform_forall₂ h fun d hd d' hevolves => hstep d hd d' (hP d hd) hevolves
  exact forall_of_forall₂ hpairs hP fun _ _ hd' _ => hd'

end Coordinator

end Rill
