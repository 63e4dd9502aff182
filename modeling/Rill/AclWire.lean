import Rill.IpText
import Rill.RouteEngine

/-!
# Access policies on the wire

A policy comes from the configuration of a network (`rill-coord/src/config/mod.rs`), is sent with
every netmap (`acl_policy_message` of `rill-mesh/src/control/server.rs`) and read by the node
(`acl_from_wire` of `control/client.rs`). A subject is sent as text. The reader skips what it cannot
read; what the configuration admits it reads as it was.
-/

namespace Rill

/-! ## Configuration -/

structure AclRuleConfig where
  subjects : List Text
  route : Text
  action : Text

structure AclConfig where
  enabled : Bool := false
  rules : List AclRuleConfig := []
  groups : Table Text (List UInt32) := ∅

namespace AclRuleConfig
variable (parseIp : Text → Option IpAddr) (groups : Table Text (List UInt32))

def toSubject (s : Text) : Except Text AclSubject :=
  if s = ascii "any" then .ok .any
  else
    match Text.strip (ascii "node:") s with
    | some id =>
      (Text.parseUnsigned 32 id).elim (.error (ascii "invalid acl subject: " ++ s)) fun id =>
        .ok (.node (UInt32.ofNat id))
    | none =>
      match Text.strip (ascii "group:") s with
      | some name =>
        if name.isEmpty || !groups.contains name then .error (ascii "unknown acl group: " ++ s)
        else .ok (.group name)
      | none => .error (ascii "invalid acl subject: " ++ s)

def toAction (action : Text) : Except Text AclAction :=
  if action = ascii "allow" then .ok .allow
  else if action = ascii "deny" then .ok .deny
  else .error (ascii "invalid acl action: " ++ action)

def toRule (rule : AclRuleConfig) : Except Text AclRule := do
  let route ← (Prefix.parse parseIp rule.route).elim
    (.error (ascii "invalid acl prefix: " ++ rule.route)) .ok
  let subjects ← rule.subjects.mapM (toSubject groups)
  if subjects.isEmpty then .error (ascii "acl rule has no subjects")
  else do
    let action ← toAction rule.action
    .ok { subjects, route, action }

end AclRuleConfig

def AclConfig.toPolicy (cfg : AclConfig) (parseIp : Text → Option IpAddr) :
    Except Text AclPolicy := do
  let rules ← cfg.rules.mapM (AclRuleConfig.toRule parseIp cfg.groups)
  .ok { enabled := cfg.enabled, rules, groups := cfg.groups }

/-! ## Messages -/

structure AclRuleMessage where
  subjects : List Text
  route : Text
  deny : Bool
  deriving DecidableEq

structure AclGroupMessage where
  name : Text
  nodeIds : Bytes
  deriving DecidableEq

structure AclPolicyMessage where
  enabled : Bool
  rules : List AclRuleMessage
  groups : List AclGroupMessage
  deriving DecidableEq

def AclSubject.text : AclSubject → Text
  | .any => ascii "any"
  | .node id => ascii "node:" ++ Text.ofNat id.toNat
  | .group name => ascii "group:" ++ name

def AclRule.message (showIp : IpAddr → Text) (rule : AclRule) : AclRuleMessage where
  subjects := rule.subjects.map AclSubject.text
  route := rule.route.toCidr showIp
  deny := rule.action == .deny

def aclPolicyMessage (showIp : IpAddr → Text) (o : HashOrder Text) (policy : AclPolicy) :
    AclPolicyMessage where
  enabled := policy.enabled
  rules := policy.rules.map (AclRule.message showIp)
  groups := (o.entries policy.groups).map fun g => ⟨g.1, g.2.flatMap u32be⟩

/-- The words of four bytes; what is left over at the end is ignored. -/
def wireIds : Bytes → List UInt32
  | a :: b :: c :: d :: rest => UInt32.ofNat (readBE [a, b, c, d]) :: wireIds rest
  | _ => []

def AclSubject.fromText (s : Text) : Option AclSubject :=
  match Text.strip (ascii "node:") s with
  | some id => (Text.parseUnsigned 32 id).map fun id => .node (UInt32.ofNat id)
  | none =>
    match Text.strip (ascii "group:") s with
    | some name =>
      if !name.isEmpty then some (.group name) else if s = ascii "any" then some .any else none
    | none => if s = ascii "any" then some .any else none

/-- A rule is skipped if its prefix cannot be read, or if it has subjects and none can be. -/
def AclRuleMessage.rule (parseIp : Text → Option IpAddr) (msg : AclRuleMessage) : Option AclRule :=
  (Prefix.parse parseIp msg.route).bind fun route =>
    let subjects := msg.subjects.filterMap AclSubject.fromText
    if subjects.isEmpty && !msg.subjects.isEmpty then none
    else some { subjects, route, action := if msg.deny then .deny else .allow }

def aclFromWire (parseIp : Text → Option IpAddr) (msg : AclPolicyMessage) : AclPolicy where
  enabled := msg.enabled
  rules := msg.rules.filterMap (AclRuleMessage.rule parseIp)
  groups := msg.groups.foldl (fun t g => t.insert g.name (wireIds g.nodeIds)) ∅

/-! ## Round trip -/

theorem wireIds_flatMap (ids : List UInt32) : wireIds (ids.flatMap u32be) = ids := by
  induction ids with
  | nil => rfl
  | cons id ids ih =>
    obtain ⟨a, b, c, d, hbytes⟩ : ∃ a b c d, u32be id = [a, b, c, d] :=
      List.length_eq_four.mp (length_u32be id)
    rw [List.flatMap_cons, hbytes]
    change UInt32.ofNat (readBE [a, b, c, d]) :: wireIds (ids.flatMap u32be) = _
    rw [ih, ← hbytes, ofNat_readBE_u32be]

namespace AclSubject

/-- A subject that names a group gives it a name. -/
def Named : AclSubject → Prop
  | .group name => name ≠ []
  | _ => True

theorem fromText_text {s : AclSubject} (h : s.Named) : fromText s.text = some s := by
  cases s with
  | any => rfl
  | node id =>
    have hstrip : Text.strip (ascii "node:") (text (.node id)) = some (Text.ofNat id.toNat) := rfl
    rw [fromText, hstrip]
    simp [Text.parseUnsigned_ofNat id.toNat_lt]
  | group name =>
    have hstrip : Text.strip (ascii "group:") (text (.group name)) = some name := rfl
    have hnode : Text.strip (ascii "node:") (text (.group name)) = none := rfl
    rw [fromText, hnode, hstrip]
    simp [List.isEmpty_eq_false_iff.mpr h]

theorem named_toSubject {groups : Table Text (List UInt32)} {text : Text} {s : AclSubject}
    (h : AclRuleConfig.toSubject groups text = .ok s) : s.Named := by
  cases s with
  | any => trivial
  | node id => trivial
  | group name =>
    rw [AclRuleConfig.toSubject] at h
    split_ifs at h
    · nomatch h
    split at h
    · next id _ =>
      cases hid : Text.parseUnsigned 32 id with
      | none =>
        rw [hid] at h
        nomatch h
      | some n =>
        rw [hid] at h
        nomatch h
    · split at h
      · next given _ =>
        split_ifs at h with hname
        obtain rfl : given = name := by simpa using h
        intro hnil
        exact hname (by rw [hnil]; rfl)
      · nomatch h

end AclSubject

theorem forall_of_mapM_ok {α β ε : Type} {f : α → Except ε β} {P : β → Prop}
    (hf : ∀ a b, f a = .ok b → P b) {l : List α} {l' : List β} (h : l.mapM f = .ok l') :
    ∀ b ∈ l', P b := by
  induction l generalizing l' with
  | nil =>
    obtain rfl : [] = l' := Except.ok.inj h
    exact fun b hb => nomatch hb
  | cons a l ih =>
    rw [List.mapM_cons] at h
    cases ha : f a with
    | error e =>
      rw [ha] at h
      nomatch h
    | ok b =>
      rw [ha] at h
      cases hl : l.mapM f with
      | error e =>
        rw [hl] at h
        nomatch h
      | ok rest =>
        rw [hl] at h
        obtain rfl : b :: rest = l' := Except.ok.inj h
        exact List.forall_mem_cons.mpr ⟨hf a b ha, ih hl⟩

theorem AclRuleConfig.named_toRule {parseIp : Text → Option IpAddr}
    {groups : Table Text (List UInt32)} {cfg : AclRuleConfig} {rule : AclRule}
    (h : toRule parseIp groups cfg = .ok rule) : ∀ s ∈ rule.subjects, s.Named := by
  rw [toRule] at h
  cases hroute : Prefix.parse parseIp cfg.route with
  | none =>
    rw [hroute] at h
    nomatch h
  | some route =>
    cases hsubjects : cfg.subjects.mapM (toSubject groups) with
    | error e =>
      rw [hroute, hsubjects] at h
      nomatch h
    | ok subjects =>
      rw [hroute, hsubjects] at h
      change (if subjects.isEmpty then _ else _) = _ at h
      split_ifs at h
      cases haction : toAction cfg.action with
      | error e =>
        rw [haction] at h
        nomatch h
      | ok action =>
        rw [haction] at h
        cases h
        exact forall_of_mapM_ok (fun _ _ => AclSubject.named_toSubject) hsubjects

theorem AclConfig.named_toPolicy {cfg : AclConfig} {parseIp : Text → Option IpAddr}
    {policy : AclPolicy} (h : cfg.toPolicy parseIp = .ok policy) :
    ∀ rule ∈ policy.rules, ∀ s ∈ rule.subjects, s.Named := by
  rw [toPolicy] at h
  cases hrules : cfg.rules.mapM (AclRuleConfig.toRule parseIp cfg.groups) with
  | error e =>
    rw [hrules] at h
    nomatch h
  | ok rules =>
    rw [hrules] at h
    cases h
    exact forall_of_mapM_ok (fun _ _ => AclRuleConfig.named_toRule) hrules

theorem AclRule.rule_message {rule : AclRule} (h : ∀ s ∈ rule.subjects, s.Named) :
    (rule.message IpText.showIp).rule IpText.parseIp = some rule := by
  have hsubjects : (rule.subjects.map AclSubject.text).filterMap AclSubject.fromText =
      rule.subjects := by
    rw [List.filterMap_map]
    exact (List.filterMap_congr fun s hs => AclSubject.fromText_text (h s hs)).trans
      List.filterMap_some
  have haction : (if (rule.action == .deny) = true then AclAction.deny else .allow) =
      rule.action := by
    cases rule.action with
    | allow => rfl
    | deny => rfl
  rw [AclRuleMessage.rule, message, Prefix.parse_toCidr, Option.bind_some]
  dsimp only
  rw [hsubjects, haction, List.isEmpty_map]
  simp

theorem aclFromWire_message {policy : AclPolicy}
    (h : ∀ rule ∈ policy.rules, ∀ s ∈ rule.subjects, s.Named) (o : HashOrder Text) :
    aclFromWire IpText.parseIp (aclPolicyMessage IpText.showIp o policy) = policy := by
  have hrules : (policy.rules.map (AclRule.message IpText.showIp)).filterMap
      (AclRuleMessage.rule IpText.parseIp) = policy.rules := by
    rw [List.filterMap_map]
    exact (List.filterMap_congr fun rule hrule => AclRule.rule_message (h rule hrule)).trans
      List.filterMap_some
  have hgroups : ((o.entries policy.groups).map fun g =>
      (⟨g.1, g.2.flatMap u32be⟩ : AclGroupMessage)).foldl
        (fun t g => t.insert g.name (wireIds g.nodeIds)) ∅ = policy.groups := by
    rw [List.foldl_map]
    simp only [wireIds_flatMap]
    have hnames : ((o.entries policy.groups).map Prod.fst).Nodup := by
      rw [HashOrder.map_fst_entries]
      exact o.nodup_keys policy.groups
    refine Table.foldl_insert_eq hnames fun name ids => ?_
    constructor
    · intro hname
      exact ⟨(name, ids), HashOrder.mem_entries.mpr hname, rfl, rfl⟩
    · rintro ⟨g, hg, rfl, rfl⟩
      exact HashOrder.mem_entries.mp hg
  rw [aclFromWire, aclPolicyMessage]
  dsimp only
  rw [hrules, hgroups]

/-- A node decides by the policy it was sent as its coordinator would by the one it holds. -/
theorem acl_policy_survives {cfg : AclConfig} {policy : AclPolicy}
    (hcfg : cfg.toPolicy IpText.parseIp = .ok policy) (o : HashOrder Text) (checks : Bool)
    (source : UInt32) :
    (∀ dst, (aclFromWire IpText.parseIp (aclPolicyMessage IpText.showIp o policy)).allows checks
      source dst = policy.allows checks source dst) ∧
    ∀ payload, (aclFromWire IpText.parseIp (aclPolicyMessage IpText.showIp o policy)).allowsPacket
      checks source payload = policy.allowsPacket checks source payload := by
  rw [aclFromWire_message (AclConfig.named_toPolicy hcfg) o]
  exact ⟨fun _ => rfl, fun _ => rfl⟩

/-- Nodes 1 and 2 may reach the network 10.0.0.0/8, node 3 may not. -/
def labAcl : AclConfig where
  enabled := true
  rules := [⟨[ascii "node:3"], ascii "10.0.0.0/8", ascii "deny"⟩,
    ⟨[ascii "group:ops", ascii "node:3"], ascii "10.0.0.0/8", ascii "allow"⟩,
    ⟨[ascii "node:1"], ascii "2001:db8::/32", ascii "deny"⟩]
  groups := (∅ : Table Text (List UInt32)).insert (ascii "ops") [1, 2]

theorem acl_policy_survives_lab : ∃ policy, labAcl.toPolicy IpText.parseIp = .ok policy ∧
    policy.rules.length = 3 ∧
    (∀ dst, (aclFromWire IpText.parseIp (aclPolicyMessage IpText.showIp .ascending policy)).allows
      true 3 dst = policy.allows true 3 dst) ∧
    ∀ payload, (aclFromWire IpText.parseIp
      (aclPolicyMessage IpText.showIp .ascending policy)).allowsPacket true 3 payload =
        policy.allowsPacket true 3 payload := by
  obtain ⟨policy, hpolicy, hlen⟩ : ∃ policy, labAcl.toPolicy IpText.parseIp = .ok policy ∧
      policy.rules.length = 3 := ⟨_, rfl, rfl⟩
  exact ⟨policy, hpolicy, hlen, acl_policy_survives hpolicy .ascending true 3⟩

end Rill
