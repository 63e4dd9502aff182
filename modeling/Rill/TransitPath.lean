import Rill.DefaultRoute
import Rill.NodeDelivery

/-!
# The way of a packet through several nodes

Nodes with fixed tables and legs. A packet comes in from the LAN or over a leg and leaves over
another one (`runtime/lan.rs`); the mesh takes it to the node that the route names, a tunnel of dn42
or the tailnet to wherever it ends. No packet leaves over the leg it came in on, so without tunnels
between the nodes it is passed on a few times at most. With them it may go round: the hop limit of
the packet is not lowered.
-/

namespace Rill

namespace Node
variable {σ : Type} (C : Crypto) (checks : Bool) (n : Node σ) (env : NodeEnv)

/-- Where a packet from the LAN goes: the best route, or else the default route. -/
def lanVia (info : PacketInfo) : Option (Option RouteVia) := do
  match ← n.engine.lookupBest checks info.dst fun e => env.reachable checks info.src e.via with
  | some entry => some (some entry.via)
  | none => n.defaultRoute.resolve (env.reachable checks info.src)

/-- What leaves the node for a packet from the LAN. Without a session a handshake is started and the
packet is lost; multicast is flooded in frames of its own. -/
def lanOutputs (packet : Bytes) : Option (List NodeOutput) := do
  let packet ← clampForLan (n.tun.getD tunConservativeMtu) packet
  match ← parsePacket packet with
  | .error _ => some []
  | .ok info =>
    if info.dst.isMulticast then some []
    else
      match ← n.lanVia checks env info with
      | none => some []
      | some (.mesh peer) => some (n.transitToMesh C env peer info packet).2.1
      | some (.dn42 name) =>
        some (match env.dn42Peers.find? fun l => l.name == name with
          | none => []
          | some leg => if env.legAccepts then [.dn42 leg.name packet] else [])
      | some (.tailnet id) =>
        some (if env.ts2021.isSome && env.legAccepts then [.tailnet id packet] else [])
      | some (.direct _) => some []

/-- A packet out of a tunnel: to another leg, or else to the LAN. -/
def tunnelOutputs (origin : TransitFrom) (packet : Bytes) : Option (List NodeOutput) := do
  let (taken, outputs, n) ← n.forwardTransit C checks env packet origin
  if taken then some outputs
  else
    let (written, _) ← n.writeLan env packet
    some (outputs ++ written)

/-- The best route for a packet leads into the mesh. -/
def routesToMesh (packet : Bytes) : Bool :=
  match parsePacket packet with
  | some (.ok info) =>
    match n.engine.lookupBest checks info.dst fun e => env.reachable checks info.src e.via with
    | some (some ⟨_, _, .mesh _, _⟩) => true
    | _ => false
  | _ => false

end Node

/-- How a packet comes to a node. -/
inductive Arrival where
  | lan
  | mesh (source : UInt32)
  | dn42
  | tailnet
  deriving DecidableEq

def Arrival.isMesh : Arrival → Bool
  | .mesh _ => true
  | _ => false

/-- The leg a packet came in over. -/
def Arrival.leg : Arrival → Option TransitFrom
  | .lan => none
  | .mesh _ => some .mesh
  | .dn42 => some .dn42
  | .tailnet => some .tailnet

/-- A packet at a node; `returned` says that it has been sent over the mesh and then through a
tunnel. -/
structure Flight where
  place : UInt32
  arrival : Arrival
  packet : Bytes
  returned : Bool := false
  deriving DecidableEq

/-- The nodes with their surroundings, and the nodes at which the tunnels end. -/
structure Fabric (σ : Type) where
  nodes : Table UInt32 (Node σ × NodeEnv)
  dn42End : UInt32 → Text → Option UInt32
  tailnetEnd : UInt32 → Text → Option UInt32

namespace Fabric
variable {σ : Type} (C : Crypto) (checks : Bool) (f : Fabric σ)

def outputs (x : Flight) : Option (List NodeOutput) := do
  let (n, env) ← f.nodes[x.place]?
  match x.arrival with
  | .lan => n.lanOutputs C checks env x.packet
  | .mesh source => (n.deliver C checks env (.data source x.packet)).map Prod.fst
  | .dn42 => n.tunnelOutputs C checks env .dn42 x.packet
  | .tailnet => n.tunnelOutputs C checks env .tailnet x.packet

/-- The packet that is sealed for the mesh: one from the LAN is clamped first. -/
def sealedPacket (x : Flight) : Bytes :=
  match x.arrival, f.nodes[x.place]? with
  | .lan, some (n, _) => (Node.clampForLan (n.tun.getD tunConservativeMtu) x.packet).getD x.packet
  | _, _ => x.packet

/-- Where an output comes in next. -/
def carry (x : Flight) : NodeOutput → Option Flight
  | .lan _ => none
  | .mesh peer _ =>
    some { x with place := peer, arrival := .mesh x.place, packet := f.sealedPacket x }
  | .dn42 peer packet => (f.dn42End x.place peer).map fun place =>
    { place, arrival := .dn42, packet, returned := x.returned || x.arrival.isMesh }
  | .tailnet peer packet => (f.tailnetEnd x.place peer).map fun place =>
    { place, arrival := .tailnet, packet, returned := x.returned || x.arrival.isMesh }

/-- A packet is passed on to another node. -/
def hop (x : Flight) : Option Flight := (f.outputs C checks x).bind fun l => l.findSome? (f.carry x)

def travel : ℕ → Flight → Option Flight
  | 0, x => some x
  | k + 1, x => (f.hop C checks x).bind (travel k)

/-- What came over the mesh and then through a tunnel is not sent over the mesh again. -/
def Fits (x : Flight) : Prop :=
  x.returned = true →
    (f.nodes[x.place]?).all (fun p => !p.1.routesToMesh checks p.2 x.packet) = true

end Fabric

/-! ## The edges between legs -/

/-- What a packet that came in over a leg leaves over. -/
inductive TransitEdge : TransitFrom → NodeOutput → Prop
  | toMesh {origin : TransitFrom} (h : origin ≠ .mesh) (peer : UInt32) (frame : Bytes) :
    TransitEdge origin (.mesh peer frame)
  | toDn42 {origin : TransitFrom} (h : origin ≠ .dn42) (peer : Text) (packet : Bytes) :
    TransitEdge origin (.dn42 peer packet)
  | toTailnet (peer : Text) (packet : Bytes) : TransitEdge .mesh (.tailnet peer packet)

namespace Node
variable {σ : Type} {C : Crypto} {checks : Bool} {n : Node σ} {env : NodeEnv} {packet : Bytes}
  {origin : TransitFrom} {output : NodeOutput}

theorem mem_transitToMesh {peer : UInt32} {info : PacketInfo}
    (h : output ∈ (n.transitToMesh C env peer info packet).2.1) :
    ∃ frame, output = .mesh peer frame := by
  rw [transitToMesh] at h
  split_ifs at h
  · nomatch h
  · split at h
    · nomatch h
    · dsimp only at h
      split_ifs at h
      · exact ⟨_, List.mem_singleton.mp h⟩
      · nomatch h

theorem edge_of_transitVia {via : RouteVia} {info : PacketInfo}
    {r : Bool × List NodeOutput × Node σ}
    (h : n.transitVia C checks env via origin info packet = some r) (hmem : output ∈ r.2.1) :
    TransitEdge origin output ∧ ∀ peer frame, output = .mesh peer frame → via = .mesh peer := by
  unfold transitVia at h
  split at h
  · obtain ⟨_, -, rfl⟩ := Option.map_eq_some_iff.mp h
    nomatch hmem
  · rename_i hother
    split at h
    · cases h
      nomatch hmem
    · cases h
      split_ifs at hmem
      · obtain rfl := List.mem_singleton.mp hmem
        exact ⟨.toDn42 hother _ _, fun _ _ h => nomatch h⟩
      · nomatch hmem
  · obtain ⟨_, -, rfl⟩ := Option.map_eq_some_iff.mp h
    nomatch hmem
  · rename_i hother
    cases h
    obtain ⟨frame, rfl⟩ := mem_transitToMesh hmem
    refine ⟨.toMesh hother _ _, fun peer frame h => ?_⟩
    rw [(NodeOutput.mesh.inj h).1]
  · split at h
    · cases h
      nomatch hmem
    · cases h
      split_ifs at hmem
      · obtain rfl := List.mem_singleton.mp hmem
        exact ⟨.toTailnet _ _, fun _ _ h => nomatch h⟩
      · nomatch hmem
  all_goals
    cases h
    nomatch hmem

theorem edge_of_forwardTransit {r : Bool × List NodeOutput × Node σ}
    (h : n.forwardTransit C checks env packet origin = some r) (hmem : output ∈ r.2.1) :
    TransitEdge origin output ∧
      ∀ peer frame, output = .mesh peer frame → n.routesToMesh checks env packet = true := by
  unfold forwardTransit at h
  obtain ⟨parsed, hparsed, h⟩ := Option.bind_eq_some_iff.mp h
  rcases parsed with e | info
  · cases h
    nomatch hmem
  · dsimp only at h
    split at h
    · cases h
      nomatch hmem
    · obtain ⟨best, hbest, h⟩ := Option.bind_eq_some_iff.mp h
      rcases best with _ | ⟨route, source, via, metric⟩
      · cases h
        nomatch hmem
      · obtain ⟨hedge, hvia⟩ := edge_of_transitVia h hmem
        refine ⟨hedge, fun peer frame houtput => ?_⟩
        obtain rfl : via = .mesh peer := hvia peer frame houtput
        rw [routesToMesh, hparsed]
        dsimp only
        rw [hbest]

theorem lan_of_writeLan {r : List NodeOutput × Node σ} (h : n.writeLan env packet = some r)
    (hmem : output ∈ r.1) : ∃ p, output = .lan p := by
  rcases writeLan_eq h with ⟨rfl, -⟩ | ⟨mtu, p, writes, -, -, rfl⟩
  · nomatch hmem
  · rw [tunWrite] at hmem
    split_ifs at hmem
    · nomatch hmem
    · exact ⟨p, List.mem_singleton.mp hmem⟩

theorem edge_of_tunnelOutputs {l : List NodeOutput}
    (h : n.tunnelOutputs C checks env origin packet = some l) (hmem : output ∈ l) :
    (∃ p, output = .lan p) ∨ TransitEdge origin output ∧
      ∀ peer frame, output = .mesh peer frame → n.routesToMesh checks env packet = true := by
  rw [tunnelOutputs] at h
  obtain ⟨⟨taken, outs, n'⟩, htransit, h⟩ := Option.bind_eq_some_iff.mp h
  dsimp only at h
  split_ifs at h
  · cases h
    exact Or.inr (edge_of_forwardTransit htransit hmem)
  · obtain ⟨⟨written, n''⟩, hwrite, h⟩ := Option.bind_eq_some_iff.mp h
    cases h
    rcases List.mem_append.mp hmem with hmem | hmem
    · exact Or.inr (edge_of_forwardTransit htransit hmem)
    · exact Or.inl (lan_of_writeLan hwrite hmem)

theorem edge_of_deliver {source : UInt32} {r : List NodeOutput × Node σ}
    (h : n.deliver C checks env (.data source packet) = some r) (hmem : output ∈ r.1) :
    (∃ p, output = .lan p) ∨ TransitEdge .mesh output := by
  rw [deliver] at h
  obtain ⟨⟨payload, n'⟩, -, h⟩ := Option.bind_eq_some_iff.mp h
  cases payload with
  | none =>
    cases h
    nomatch hmem
  | some payload =>
    dsimp only at h
    rw [passOn] at h
    obtain ⟨⟨taken, outs, n'⟩, htransit, h⟩ := Option.bind_eq_some_iff.mp h
    dsimp only at h
    split_ifs at h
    · cases h
      exact Or.inr (edge_of_forwardTransit htransit hmem).1
    · obtain ⟨⟨written, n''⟩, hwrite, h⟩ := Option.bind_eq_some_iff.mp h
      cases h
      rcases List.mem_append.mp hmem with hmem | hmem
      · exact Or.inr (edge_of_forwardTransit htransit hmem).1
      · exact Or.inl (lan_of_writeLan hwrite hmem)

end Node

/-! ## The way ends -/

/-- How many nodes a packet can still come to, if it does not go round. -/
def Flight.rank (x : Flight) : ℕ :=
  match x.arrival, x.returned with
  | .lan, _ => 6
  | .tailnet, false => 5
  | .dn42, false => 4
  | .mesh _, _ => 3
  | .tailnet, true => 2
  | .dn42, true => 1

namespace Fabric
variable {σ : Type} {C : Crypto} {checks : Bool} {f : Fabric σ} {x y : Flight}

theorem rank_pos (x : Flight) : 0 < x.rank := by
  unfold Flight.rank
  split <;> decide

theorem rank_lt_of_lan (h : x.arrival ≠ .lan) : x.rank < 6 := by
  unfold Flight.rank
  split <;> first | decide | contradiction

theorem rank_carry {origin : TransitFrom} {output : NodeOutput} (hleg : x.arrival.leg = some origin)
    (hedge : TransitEdge origin output)
    (hmesh : ∀ peer frame, output = .mesh peer frame → x.returned = false)
    (h : f.carry x output = some y) : y.rank < x.rank := by
  obtain ⟨place, arrival, packet, returned⟩ := x
  cases hedge with
  | toMesh hne peer frame =>
    obtain rfl : returned = false := hmesh peer frame rfl
    cases h
    cases arrival with
    | lan => nomatch hleg
    | mesh source => exact absurd (Option.some.inj hleg).symm hne
    | dn42 => simp [Flight.rank]
    | tailnet => simp [Flight.rank]
  | toDn42 hne peer packet =>
    obtain ⟨place, -, rfl⟩ := Option.map_eq_some_iff.mp h
    cases arrival with
    | lan => nomatch hleg
    | mesh source => cases returned <;> simp [Flight.rank, Arrival.isMesh]
    | dn42 => exact absurd (Option.some.inj hleg).symm hne
    | tailnet => cases returned <;> simp [Flight.rank, Arrival.isMesh]
  | toTailnet peer packet =>
    obtain ⟨place, -, rfl⟩ := Option.map_eq_some_iff.mp h
    cases arrival with
    | mesh source => cases returned <;> simp [Flight.rank, Arrival.isMesh]
    | lan => nomatch hleg
    | dn42 => nomatch hleg
    | tailnet => nomatch hleg

theorem arrival_carry {output : NodeOutput} (h : f.carry x output = some y) : y.arrival ≠ .lan := by
  cases output with
  | lan p => nomatch h
  | mesh peer frame =>
    cases h
    exact fun h => nomatch h
  | dn42 peer p =>
    obtain ⟨place, -, rfl⟩ := Option.map_eq_some_iff.mp h
    exact fun h => nomatch h
  | tailnet peer p =>
    obtain ⟨place, -, rfl⟩ := Option.map_eq_some_iff.mp h
    exact fun h => nomatch h

theorem rank_hop (hfits : f.Fits checks x) (h : f.hop C checks x = some y) : y.rank < x.rank := by
  obtain ⟨l, hl, hfind⟩ := Option.bind_eq_some_iff.mp h
  obtain ⟨output, hmem, hcarry⟩ := List.exists_of_findSome?_eq_some hfind
  obtain ⟨⟨n, env⟩, hnode, hl⟩ := Option.bind_eq_some_iff.mp hl
  dsimp only at hl
  have hlan : (∃ p, output = .lan p) → False := by
    rintro ⟨p, rfl⟩
    nomatch hcarry
  have hmesh : (∀ peer frame, output = .mesh peer frame →
      n.routesToMesh checks env x.packet = true) →
      ∀ peer frame, output = .mesh peer frame → x.returned = false := by
    intro hroutes peer frame houtput
    refine Bool.eq_false_of_not_eq_true fun hreturned => ?_
    have hno := hfits hreturned
    rw [hnode, Option.all_some, hroutes peer frame houtput] at hno
    nomatch hno
  cases harrival : x.arrival with
  | lan =>
    have hsix : x.rank = 6 := by
      rw [Flight.rank, harrival]
    exact hsix ▸ rank_lt_of_lan (arrival_carry hcarry)
  | mesh source =>
    rw [harrival] at hl
    obtain ⟨r, hr, rfl⟩ := Option.map_eq_some_iff.mp hl
    have hedge := (Node.edge_of_deliver hr hmem).resolve_left hlan
    refine rank_carry (by rw [harrival]; rfl) hedge (fun peer frame houtput => ?_) hcarry
    subst houtput
    cases hedge with
    | toMesh hne => exact absurd rfl hne
  | dn42 =>
    rw [harrival] at hl
    obtain ⟨hedge, hroutes⟩ := (Node.edge_of_tunnelOutputs hl hmem).resolve_left hlan
    exact rank_carry (by rw [harrival]; rfl) hedge (hmesh hroutes) hcarry
  | tailnet =>
    rw [harrival] at hl
    obtain ⟨hedge, hroutes⟩ := (Node.edge_of_tunnelOutputs hl hmem).resolve_left hlan
    exact rank_carry (by rw [harrival]; rfl) hedge (hmesh hroutes) hcarry

theorem rank_travel {k : ℕ} (hfits : ∀ j y, f.travel C checks j x = some y → f.Fits checks y)
    (h : f.travel C checks k x = some y) : y.rank + k ≤ x.rank := by
  induction k generalizing x with
  | zero =>
    cases h
    exact le_rfl
  | succ k ih =>
    obtain ⟨z, hz, hrest⟩ := Option.bind_eq_some_iff.mp h
    have hstep := rank_hop (hfits 0 x rfl) hz
    have hafter := ih (fun j w hw => hfits (j + 1) w (by rw [travel, hz]; exact hw)) hrest
    omega

/-- A packet is passed on six times at most. -/
theorem transit_terminates (hfits : ∀ k y, f.travel C checks k x = some y → f.Fits checks y) :
    f.travel C checks 6 x = none := by
  refine Option.eq_none_iff_forall_ne_some.mpr fun y hy => ?_
  have hle := rank_travel hfits hy
  have hpos := rank_pos y
  have hsix : x.rank ≤ 6 := by
    unfold Flight.rank
    split <;> decide
  omega

theorem travel_round (hxy : f.hop C checks x = some y) (hyx : f.hop C checks y = some x) (k : ℕ) :
    f.travel C checks k x ≠ none ∧ f.travel C checks k y ≠ none := by
  induction k with
  | zero => exact ⟨Option.some_ne_none x, Option.some_ne_none y⟩
  | succ k ih =>
    rw [travel, travel, hxy, hyx]
    exact ⟨ih.2, ih.1⟩

section Lab

/-- A node with a session to another one. -/
def labStation (self peer : UInt32) (table : List RouteEntry) : Node Unit :=
  { (Node.new Node.plainConfig none : Node Unit) with
    nodeId := some self
    engine := ⟨table⟩
    mesh :=
      { selfNodeId := self
        keyDstTable := (∅ : Table UInt32 Bytes).insert peer (List.replicate 32 1)
        sessions := (∅ : Table UInt32 Session).insert peer (.new peer ⟨0, [], []⟩) } }

def labAggregate : Prefix :=
  ⟨0xac140000000000000000000000000000#128, 14, true, by decide, by decide⟩

theorem labSite_len_le : (24 : UInt8).toNat ≤ if true then 32 else 128 := by decide

def labSite : Prefix :=
  ⟨0xac140500000000000000000000000000#128, 24, true, labSite_len_le, by decide⟩

/-- Node 2 announces 172.20.0.0/14 to the mesh and has 172.20.5.0/24 from a peer of its dn42 leg;
the tunnel to that peer ends at `far`. -/
def labFabric (far : Option UInt32) : Fabric Unit where
  nodes := ((∅ : Table UInt32 (Node Unit × NodeEnv)).insert 1
    (labStation 1 2 [⟨labAggregate, .mesh, .mesh 2, none⟩], {})).insert 2
    (labStation 2 1 [⟨labSite, .dn42, .dn42 (ascii "one"), none⟩],
      { dn42Peers := [⟨ascii "one", true⟩] })
  dn42End place _ := if place = 2 then far else none
  tailnetEnd _ _ := none

/-- A packet to 172.20.5.9, the header only. -/
def labPacket : Bytes :=
  [0x45, 0, 0, 20, 0, 0, 0, 0, 64, 1, 0, 0, 10, 0, 0, 2, 172, 20, 5, 9]

/-- If the peer is no node of the set, the packet is passed on once and then leaves. -/
theorem transit_terminates_lab :
    (labFabric none).hop (Crypto.clear 4096) true ⟨1, .dn42, labPacket, false⟩ =
      some ⟨2, .mesh 1, labPacket, false⟩ ∧
    (labFabric none).travel (Crypto.clear 4096) true 6 ⟨1, .dn42, labPacket, false⟩ = none := by
  have hfirst : (labFabric none).hop (Crypto.clear 4096) true ⟨1, .dn42, labPacket, false⟩ =
      some ⟨2, .mesh 1, labPacket, false⟩ := by
    decide
  have hsecond : (labFabric none).hop (Crypto.clear 4096) true ⟨2, .mesh 1, labPacket, false⟩ =
      none := by
    decide
  refine ⟨hfirst, transit_terminates fun k y hy => ?_⟩
  rcases k with _ | _ | k
  · cases hy
    exact fun h => nomatch h
  · rw [travel, hfirst] at hy
    cases hy
    exact fun h => nomatch h
  · rw [travel, hfirst, Option.bind_some, travel, hsecond] at hy
    nomatch hy

/-- If the peer is node 1, the packet goes round and round. -/
theorem transit_goes_round : ¬ ∃ k : ℕ,
    (labFabric (some 1)).travel (Crypto.clear 4096) true k ⟨1, .dn42, labPacket, false⟩ = none := by
  refine not_exists.mpr fun k => ?_
  have hfirst : (labFabric (some 1)).hop (Crypto.clear 4096) true ⟨1, .dn42, labPacket, false⟩ =
      some ⟨2, .mesh 1, labPacket, false⟩ := by
    decide
  have hsecond : (labFabric (some 1)).hop (Crypto.clear 4096) true
      ⟨2, .mesh 1, labPacket, false⟩ = some ⟨1, .dn42, labPacket, true⟩ := by
    decide
  have hthird : (labFabric (some 1)).hop (Crypto.clear 4096) true ⟨1, .dn42, labPacket, true⟩ =
      some ⟨2, .mesh 1, labPacket, true⟩ := by
    decide
  have hfourth : (labFabric (some 1)).hop (Crypto.clear 4096) true
      ⟨2, .mesh 1, labPacket, true⟩ = some ⟨1, .dn42, labPacket, true⟩ := by
    decide
  rcases k with _ | _ | k
  · exact Option.some_ne_none _
  · rw [travel, hfirst]
    exact Option.some_ne_none _
  · rw [travel, hfirst, Option.bind_some, travel, hsecond]
    exact (travel_round hthird hfourth k).1

end Lab

end Fabric

end Rill
