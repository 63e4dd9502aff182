import Rill.IpText
import Rill.RouteEngine
import Rill.TsRegistry

/-!
# Default routes of the tailnet

The server approves the announced routes that a rule of its whitelist covers, and a default route
only with the exit switch; the node (`pump_ts2021` of `runtime/ts2021.rs`) takes the routes of a
netmap into its table, but for those whose text ends in a length of zero. Both look at the text of a
route. A prefix of length 0 has other spellings: the server approves one exactly if a rule denotes
one, and the node inserts one exactly if the netmap has a spelling that does not end in "/0".
-/

namespace Rill

def Text.endsWith (text ending : Text) : Bool := ending.isSuffixOf text

/-- A peer of a netmap, with the routes it takes. -/
structure Ts2021Peer where
  id : Text
  allowedIps : List Text
  deriving DecidableEq

inductive EngineCall where
  | insert (entry : RouteEntry)
  | removeTailnetPeer (peer : Text)
  deriving DecidableEq

def RouteEngine.call (engine : RouteEngine) : EngineCall → RouteEngine
  | .insert entry => engine.insert entry
  | .removeTailnetPeer peer => engine.removeTailnetPeer peer

/-- The part of a node that a netmap of the tailnet changes. -/
structure TailnetRoutes where
  engine : RouteEngine
  defaultRoute : DefaultRouteResolver := {}
  peers : Table Text Ts2021Peer := ∅

namespace TailnetRoutes
variable (parseIp : Text → Option IpAddr)

def isExit (cidr : Text) : Bool := cidr.endsWith (ascii "/0")

/-- The entry of a route of a peer. -/
def entryOf (p : Ts2021Peer) (route : Prefix) : RouteEntry :=
  { route, source := .tailnet, via := .tailnet p.id }

def peerCalls (p : Ts2021Peer) : List EngineCall :=
  .removeTailnetPeer p.id :: p.allowedIps.filterMap fun cidr =>
    if isExit cidr then none
    else (Prefix.parse parseIp cidr).map fun route => .insert (entryOf p route)

/-- The calls of the route engine for a netmap, in their order. -/
def engineCalls (o : HashOrder Text) (s : TailnetRoutes) (peers : List Ts2021Peer) :
    List EngineCall :=
  (((o.keys s.peers).filter fun id => !(peers.map Ts2021Peer.id).contains id).map
      .removeTailnetPeer) ++ peers.flatMap (peerCalls parseIp)

def pumpNetmap (o : HashOrder Text) (s : TailnetRoutes) (peers : List Ts2021Peer) :
    TailnetRoutes where
  engine := (engineCalls parseIp o s peers).foldl RouteEngine.call s.engine
  defaultRoute := { s.defaultRoute with
    tailnetExits := (peers.filter fun p => p.allowedIps.any isExit).map Ts2021Peer.id }
  peers := peers.foldl (fun t p => t.insert p.id p) ∅

variable {parseIp} {o : HashOrder Text} {s : TailnetRoutes} {peers : List Ts2021Peer}

theorem insert_mem_engineCalls {e : RouteEntry} :
    .insert e ∈ engineCalls parseIp o s peers ↔ ∃ p ∈ peers, ∃ cidr ∈ p.allowedIps,
      isExit cidr = false ∧ ∃ route, Prefix.parse parseIp cidr = some route ∧
        e = entryOf p route := by
  simp only [engineCalls, peerCalls, List.mem_append, List.mem_map, reduceCtorEq, and_false,
    exists_false, false_or, List.mem_flatMap, List.mem_cons, List.mem_filterMap]
  refine exists_congr fun p => and_congr_right fun _ => exists_congr fun cidr =>
    and_congr_right fun _ => ?_
  cases hexit : isExit cidr with
  | true => simp
  | false => simp [eq_comm]

theorem no_default_inserted_iff :
    (∀ e, .insert e ∈ engineCalls parseIp o s peers → e.route.len ≠ 0) ↔
      ∀ p ∈ peers, ∀ cidr ∈ p.allowedIps, ∀ route, Prefix.parse parseIp cidr = some route →
        route.len = 0 → isExit cidr = true := by
  constructor
  · intro h p hp cidr hcidr route hroute hlen
    by_contra hexit
    exact h (entryOf p route) (insert_mem_engineCalls.mpr
      ⟨p, hp, cidr, hcidr, Bool.eq_false_of_not_eq_true hexit, route, hroute, rfl⟩) hlen
  · intro h e he hlen
    obtain ⟨p, hp, cidr, hcidr, hexit, route, hroute, rfl⟩ := insert_mem_engineCalls.mp he
    exact Bool.false_ne_true (hexit.symm.trans (h p hp cidr hcidr route hroute hlen))

theorem mem_foldl_call {e : RouteEntry} {calls : List EngineCall} {engine : RouteEngine}
    (h : e ∈ (calls.foldl RouteEngine.call engine).table) :
    e ∈ engine.table ∨ .insert e ∈ calls := by
  induction calls generalizing engine with
  | nil => exact .inl h
  | cons c calls ih =>
    rcases ih h with hmem | hmem
    · cases c with
      | insert entry =>
        rcases List.mem_append.mp hmem with hold | hnew
        · exact .inl hold
        · rw [List.mem_singleton.mp hnew]
          exact .inr List.mem_cons_self
      | removeTailnetPeer peer => exact .inl (List.mem_of_mem_filter hmem)
    · exact .inr (List.mem_cons_of_mem c hmem)

/-- The table has no default route of the tailnet. -/
def Gated (s : TailnetRoutes) : Prop :=
  ∀ e ∈ s.engine.table, e.source = .tailnet → e.route.len ≠ 0

theorem Gated.pumpNetmap (hgated : s.Gated)
    (h : ∀ e, .insert e ∈ engineCalls parseIp o s peers → e.route.len ≠ 0) :
    (s.pumpNetmap parseIp o peers).Gated := by
  intro e he hsource
  rcases mem_foldl_call he with hold | hnew
  · exact hgated e hold hsource
  · exact h e hnew

end TailnetRoutes

namespace Ts2021.RoutesWhitelist
variable {parseIp : Text → Option IpAddr} {rules : List Text} {w : RoutesWhitelist}

theorem prefixes_of_parse {allowExit : Bool} (h : parse parseIp rules allowExit = .ok w) :
    w.allowExit = allowExit ∧ (∀ rule ∈ rules, isDefaultText rule = false) ∧
      ∀ p, p ∈ w.prefixes ↔ ∃ rule ∈ rules, Prefix.parse parseIp rule = some p := by
  rw [parse] at h
  cases hrules : parseRules parseIp rules with
  | error e =>
    rw [hrules] at h
    nomatch h
  | ok prefixes =>
    rw [hrules] at h
    obtain rfl := Except.ok.inj h
    refine ⟨rfl, ?_⟩
    clear h
    induction rules generalizing prefixes with
    | nil =>
      obtain rfl := Except.ok.inj hrules
      exact ⟨List.forall_mem_nil _, by simp⟩
    | cons rule rules ih =>
      rw [parseRules] at hrules
      split_ifs at hrules with hdefault
      cases hparse : Prefix.parse parseIp rule with
      | none =>
        rw [hparse] at hrules
        nomatch hrules
      | some p =>
        rw [hparse] at hrules
        cases hrest : parseRules parseIp rules with
        | error e =>
          rw [hrest] at hrules
          nomatch hrules
        | ok rest =>
          rw [hrest] at hrules
          obtain rfl := Except.ok.inj hrules
          obtain ⟨hnone, hall⟩ := ih rest hrest
          refine ⟨List.forall_mem_cons.mpr ⟨Bool.eq_false_of_not_eq_true hdefault, hnone⟩, ?_⟩
          intro q
          simp only [List.mem_cons, exists_eq_or_imp, hparse, Option.some.injEq]
          exact or_congr eq_comm (hall q)

theorem isCoveredBy_self (p : Prefix) : p.isCoveredBy p = true := by
  simp [Prefix.isCoveredBy, Prefix.contains]

theorem len_le_of_isCoveredBy {p q : Prefix} (h : p.isCoveredBy q = true) : q.len ≤ p.len :=
  (Prefix.within_of_isCoveredBy h).2.1

theorem no_default_approved_iff (h : parse parseIp rules false = .ok w) :
    (∀ requested, ∀ route ∈ List.filter (w.approves parseIp) requested, ∀ p,
        Prefix.parse parseIp route = some p → p.len ≠ 0) ↔
      ∀ rule ∈ rules, ∀ p, Prefix.parse parseIp rule = some p → p.len ≠ 0 := by
  obtain ⟨hexit, hnone, hall⟩ := prefixes_of_parse h
  constructor
  · intro hgate rule hrule p hp
    refine hgate [rule] rule ?_ p hp
    rw [List.mem_filter, approves, hnone rule hrule, if_neg Bool.false_ne_true, hp]
    exact ⟨List.mem_singleton_self rule,
      List.any_eq_true.mpr ⟨p, (hall p).mpr ⟨rule, hrule, hp⟩, isCoveredBy_self p⟩⟩
  · intro hrules requested route hroute p hp hlen
    have happroves := (List.mem_filter.mp hroute).2
    rw [approves, hexit, hp, Option.any_some] at happroves
    split_ifs at happroves
    obtain ⟨q, hq, hcovered⟩ := List.any_eq_true.mp happroves
    obtain ⟨rule, hrule, hparse⟩ := (hall q).mp hq
    have hle := len_le_of_isCoveredBy hcovered
    rw [hlen] at hle
    exact hrules rule hrule q hparse (UInt8.le_zero_iff.mp hle)

end Ts2021.RoutesWhitelist

namespace TailnetRoutes
open Ts2021 (RoutesWhitelist)

/-- Default routes are kept out of the approved routes and out of the table as long as no rule of
the whitelist, and no route of the netmap whose text does not end in "/0", denotes one. -/
theorem default_routes_gated_iff (parseIp : Text → Option IpAddr) {rules : List Text}
    {w : RoutesWhitelist} (h : RoutesWhitelist.parse parseIp rules false = .ok w) :
    ((∀ requested, ∀ route ∈ List.filter (w.approves parseIp) requested, ∀ p,
        Prefix.parse parseIp route = some p → p.len ≠ 0) ↔
      ∀ rule ∈ rules, ∀ p, Prefix.parse parseIp rule = some p → p.len ≠ 0) ∧
    ∀ (o : HashOrder Text) (s : TailnetRoutes) (peers : List Ts2021Peer),
      ((∀ e, .insert e ∈ engineCalls parseIp o s peers → e.route.len ≠ 0) ↔
        ∀ p ∈ peers, ∀ cidr ∈ p.allowedIps, ∀ route, Prefix.parse parseIp cidr = some route →
          route.len = 0 → isExit cidr = true) ∧
      (s.Gated → (∀ p ∈ peers, ∀ cidr ∈ p.allowedIps, ∀ route,
          Prefix.parse parseIp cidr = some route → route.len = 0 → isExit cidr = true) →
        (s.pumpNetmap parseIp o peers).Gated) := by
  refine ⟨RoutesWhitelist.no_default_approved_iff h, fun o s peers => ⟨no_default_inserted_iff, ?_⟩⟩
  intro hgated hspelled
  exact hgated.pumpNetmap (no_default_inserted_iff.mpr hspelled)

/-- A peer that announces a network and is an exit node. -/
def labExitPeer : Ts2021Peer :=
  { id := ascii "a", allowedIps := [ascii "10.0.0.0/8", ascii "0.0.0.0/0"] }

theorem default_routes_gated_iff_lab :
    (∃ w, RoutesWhitelist.parse IpText.parseIp [ascii "10.0.0.0/8"] false = .ok w ∧
      ∀ requested, ∀ route ∈ List.filter (w.approves IpText.parseIp) requested, ∀ p,
        Prefix.parse IpText.parseIp route = some p → p.len ≠ 0) ∧
    (pumpNetmap IpText.parseIp .ascending { engine := {} } [labExitPeer]).engine.table ≠ [] ∧
    (pumpNetmap IpText.parseIp .ascending { engine := {} } [labExitPeer]).Gated := by
  have hparse : (RoutesWhitelist.parse IpText.parseIp [ascii "10.0.0.0/8"] false).isOk = true := by
    decide
  obtain ⟨w, hw⟩ :
      ∃ w, RoutesWhitelist.parse IpText.parseIp [ascii "10.0.0.0/8"] false = .ok w := by
    cases hw : RoutesWhitelist.parse IpText.parseIp [ascii "10.0.0.0/8"] false with
    | ok w => exact ⟨w, rfl⟩
    | error e => rw [hw] at hparse; cases hparse
  have hgated := default_routes_gated_iff IpText.parseIp hw
  refine ⟨⟨w, hw, hgated.1.mpr ?_⟩, by decide, (hgated.2 _ _ _).2 ?_ ?_⟩
  · intro rule hrule p hp
    obtain rfl := List.mem_singleton.mp hrule
    have hlen : (Prefix.parse IpText.parseIp (ascii "10.0.0.0/8")).all (·.len ≠ 0) = true := by
      decide
    rw [hp] at hlen
    exact of_decide_eq_true hlen
  · intro e he
    cases he
  · have hspelled : ∀ cidr ∈ labExitPeer.allowedIps, (Prefix.parse IpText.parseIp cidr).all
        (fun route => route.len = 0 → isExit cidr = true) = true := by decide
    intro p hp cidr hcidr route hroute
    obtain rfl := List.mem_singleton.mp hp
    have hall := hspelled cidr hcidr
    rw [hroute] at hall
    exact of_decide_eq_true hall

/-- A length of two zeros is taken by the server as a rule, approved as a route, and inserted by the
node. -/
theorem default_route_passes :
    ∃ w p, RoutesWhitelist.parse IpText.parseIp [ascii "0.0.0.0/00"] false = .ok w ∧
      [ascii "0.0.0.0/00"].filter (w.approves IpText.parseIp) = [ascii "0.0.0.0/00"] ∧
      Prefix.parse IpText.parseIp (ascii "0.0.0.0/00") = some p ∧ p.len = 0 ∧
      ((pumpNetmap IpText.parseIp .ascending { engine := {} }
        [{ id := ascii "a", allowedIps := [ascii "0.0.0.0/00"] }]).engine.table =
          [{ route := p, source := .tailnet, via := .tailnet (ascii "a") }]) :=
  ⟨{ prefixes := [(Prefix.new 0 0 true).get rfl], allowExit := false },
    (Prefix.new 0 0 true).get rfl, by rfl, by decide, by rfl, by rfl, by decide⟩

end TailnetRoutes

end Rill
