import Rill.MeshData

/-!
# Nonces of sealed session frames

A run sends data and heartbeats to one peer, rekeys the session, and changes any other table of
the node between calls. `sealLog` has, for each operation, the keys and nonces that its frame was
sealed with; the nonce is the salt and the sequence number. Two frames share a key and a nonce
exactly when they share the key and their counts agree modulo `2 ^ 32`.
-/

namespace Rill

namespace MeshData
variable {σ : Type} (C : Crypto) (peer : UInt32)

inductive TxOp (σ : Type) where
  | data (payload : Bytes) (flowHash nowUnix : UInt64)
  | heartbeat
  | rekey (now : ℕ)
  | retable (tables : MeshData σ)

def rekeySession (d : MeshData σ) (now : ℕ) : MeshData σ :=
  match d.sessions[peer]? with
  | none => d
  | some s => { d with sessions := d.sessions.insert peer (s.rekey C now) }

def request (d : MeshData σ) : TxOp σ → Option (UInt64 × Bytes)
  | .data payload flowHash nowUnix =>
    some (((d.pickPath peer flowHash nowUnix).1.map PathEntry.pathId).getD pathIdDefault, payload)
  | .heartbeat => some (pathIdDefault, [])
  | .rekey _ => none
  | .retable _ => none

def txStep (d : MeshData σ) : TxOp σ → MeshData σ
  | .data payload flowHash nowUnix => (d.buildDataFrame C peer payload flowHash nowUnix).2
  | .heartbeat => (d.buildHeartbeatFrame C peer).2
  | .rekey now => d.rekeySession C peer now
  | .retable tables => { tables with sessions := d.sessions }

def returnsFrame (d : MeshData σ) : TxOp σ → Bool
  | .data payload flowHash nowUnix => (d.buildDataFrame C peer payload flowHash nowUnix).1.isOk
  | .heartbeat => (d.buildHeartbeatFrame C peer).1.isOk
  | .rekey _ => false
  | .retable _ => false

/-- The keys and nonces that a frame of the operation is sealed with. -/
def sealedWith (d : MeshData σ) (op : TxOp σ) : Set (Bytes × Bytes) :=
  {p | ∃ e, C.Seals (fun C => d.returnsFrame C peer op) e ∧ p = (e.key, e.nonce)}

def sealLog : MeshData σ → List (TxOp σ) → List (Set (Bytes × Bytes))
  | _, [] => []
  | d, op :: ops => d.sealedWith C peer op :: sealLog (d.txStep C peer op) ops

/-- The operation draws a sequence number: it builds a frame and finds a key to route it. -/
def draws (d : MeshData σ) (op : TxOp σ) : Bool :=
  ((d.request peer op).bind fun r => d.routeKey peer r.1).isSome

def sealable (d : MeshData σ) (maxLen : ℕ) (op : TxOp σ) : Bool :=
  d.draws peer op && ((d.request peer op).any fun r => r.2.length ≤ maxLen)

def isRekey : TxOp σ → ℕ
  | .rekey _ => 1
  | _ => 0

def rekeys (ops : List (TxOp σ)) : ℕ := (ops.map isRekey).sum

/-- Generation and count of the frame that each operation seals, from generation `g` and count `n`
on. -/
def seals (maxLen : ℕ) : ℕ → ℕ → MeshData σ → List (TxOp σ) → List (Option (ℕ × ℕ))
  | _, _, _, [] => []
  | g, n, d, op :: ops =>
    (if d.sealable peer maxLen op then some (g, n) else none) ::
      seals maxLen (g + isRekey op) (n + (d.draws peer op).toNat) (d.txStep C peer op) ops

/-- Two frames of one generation have counts that differ modulo `2 ^ 32`. -/
def CountsDiffer (o o' : Option (ℕ × ℕ)) : Prop :=
  ∀ x ∈ o, ∀ x' ∈ o', x.1 = x'.1 → x.2 % 2 ^ 32 ≠ x'.2 % 2 ^ 32

instance : DecidableRel CountsDiffer :=
  fun o o' => inferInstanceAs (Decidable (∀ x ∈ o, ∀ x' ∈ o', _))

def pairAt (keys : SessionKeys) (o : Option (ℕ × ℕ)) : Set (Bytes × Bytes) :=
  {p | ∃ x ∈ o, p = (C.rekeyChain^[x.1] keys.txKey, nonce keys.salt (UInt32.ofNat x.2).toUInt64)}

/-- The session to the peer is the one of generation `g` after `n` sequence numbers. -/
def AtCount (keys : SessionKeys) (g n : ℕ) (d : MeshData σ) : Prop :=
  ∃ s, d.sessions[peer]? = some s ∧ s.keys.txKey = C.rekeyChain^[g] keys.txKey ∧
    s.keys.salt = keys.salt ∧ s.txCounter = UInt32.ofNat n

variable {C peer}

theorem buildTypedFrame_of_session {d : MeshData σ} {s : Session} {pathId : UInt64} {k : Bytes}
    (hs : d.sessions[peer]? = some s) (hk : d.routeKey peer pathId = some k) (packetType : UInt8)
    (payload : Bytes) : d.buildTypedFrame C peer pathId packetType payload =
      ((C.buildFrame
          { packetType := packetType, toNodeId := peer, fromNodeId := d.selfNodeId,
            seq := s.txCounter, pathId := pathId } k s.keys.txKey s.keys.salt payload).mapError
          fun _ => .aead,
        { d with sessions := d.sessions.insert peer s.nextSeq.2 }) := by
  simp only [buildTypedFrame, hs, hk, Session.nextSeq]

theorem buildTypedFrame_of_no_key {d : MeshData σ} {s : Session} {pathId : UInt64}
    (hs : d.sessions[peer]? = some s) (hk : d.routeKey peer pathId = none) (packetType : UInt8)
    (payload : Bytes) :
    d.buildTypedFrame C peer pathId packetType payload = (.error .noKeyDst, d) := by
  simp only [buildTypedFrame, hs, hk]

theorem pickPath_sessions (d : MeshData σ) (dest : UInt32) (flowHash nowUnix : UInt64) :
    (d.pickPath dest flowHash nowUnix).2.sessions = d.sessions := by
  simp only [pickPath]
  split <;> rfl

theorem pickPath_routeKey (d : MeshData σ) (dest : UInt32) (flowHash nowUnix : UInt64) :
    (d.pickPath dest flowHash nowUnix).2.routeKey = d.routeKey := by
  simp only [pickPath]
  split <;> rfl

theorem build_of_request {d : MeshData σ} {op : TxOp σ} {r : UInt64 × Bytes}
    (hr : d.request peer op = some r) : ∃ (d' : MeshData σ) (packetType : UInt8),
      d'.sessions = d.sessions ∧ d'.routeKey = d.routeKey ∧ ∀ C : Crypto,
      d.returnsFrame C peer op = (d'.buildTypedFrame C peer r.1 packetType r.2).1.isOk ∧
      d.txStep C peer op = (d'.buildTypedFrame C peer r.1 packetType r.2).2 := by
  cases op with
  | data payload flowHash nowUnix =>
    cases hr
    exact ⟨(d.pickPath peer flowHash nowUnix).2, PacketType.unicast, pickPath_sessions ..,
      pickPath_routeKey .., fun C => ⟨isOk_map _ _, rfl⟩⟩
  | heartbeat =>
    cases hr
    exact ⟨d, PacketType.heartbeat, rfl, rfl, fun C => ⟨rfl, rfl⟩⟩
  | rekey now => cases hr
  | retable tables => cases hr

theorem sealedWith_of_fails {d : MeshData σ} {op : TxOp σ}
    (hfail : d.returnsFrame C peer op = false) : d.sealedWith C peer op = ∅ := by
  refine Set.eq_empty_of_forall_notMem ?_
  rintro p ⟨e, ⟨hok, -⟩, -⟩
  exact Bool.false_ne_true (hfail.symm.trans hok)

/-- A frame of a session is sealed with the session's sending key, salt and counter. -/
theorem sealedWith_of_session {maxLen : ℕ} (hC : C.Lawful maxLen) {d : MeshData σ} {op : TxOp σ}
    {s : Session} {r : UInt64 × Bytes} {k : Bytes} (hs : d.sessions[peer]? = some s)
    (hr : d.request peer op = some r) (hk : d.routeKey peer r.1 = some k) :
    d.sealedWith C peer op = {p | r.2.length ≤ maxLen ∧
      p = (s.keys.txKey, nonce s.keys.salt s.txCounter.toUInt64)} := by
  obtain ⟨d', packetType, hsess, hroute, hbuild⟩ := build_of_request hr
  have hret : ∀ C : Crypto, d.returnsFrame C peer op = (C.buildFrame
      { packetType := packetType, toNodeId := peer, fromNodeId := d'.selfNodeId,
        seq := s.txCounter, pathId := r.1 } k s.keys.txKey s.keys.salt r.2).isOk := by
    intro C
    rw [(hbuild C).1, buildTypedFrame_of_session (hsess ▸ hs) (hroute ▸ hk), isOk_mapError]
  ext p
  simp only [sealedWith, hret, Crypto.seals_buildFrame_iff, isOk_buildFrame hC, decide_eq_true_eq,
    Set.mem_ofPred_eq]
  constructor
  · rintro ⟨e, ⟨hlen, rfl⟩, rfl⟩
    exact ⟨hlen, rfl⟩
  · rintro ⟨hlen, rfl⟩
    exact ⟨_, ⟨hlen, rfl⟩, rfl⟩

theorem step_of_atCount {maxLen : ℕ} (hC : C.Lawful maxLen) {keys : SessionKeys} {g n : ℕ}
    {d : MeshData σ} (hd : d.AtCount C peer keys g n) (op : TxOp σ) :
    d.sealedWith C peer op =
        pairAt C keys (if d.sealable peer maxLen op then some (g, n) else none) ∧
      (d.txStep C peer op).AtCount C peer keys (g + isRekey op) (n + (d.draws peer op).toNat) := by
  obtain ⟨s, hs, htx, hsalt, hcount⟩ := hd
  cases hr : d.request peer op with
  | some r =>
    have hno : isRekey op = 0 := by cases op <;> first | rfl | cases hr
    obtain ⟨d', packetType, hsess, hroute, hbuild⟩ := build_of_request hr
    have hs' : d'.sessions[peer]? = some s := hsess ▸ hs
    cases hk : d.routeKey peer r.1 with
    | none =>
      have hk' : d'.routeKey peer r.1 = none := hroute ▸ hk
      have hdraw : d.draws peer op = false := by simp [draws, hr, hk]
      have hfail : d.returnsFrame C peer op = false := by
        rw [(hbuild C).1, buildTypedFrame_of_no_key hs' hk']
        rfl
      rw [sealedWith_of_fails hfail, (hbuild C).2, buildTypedFrame_of_no_key hs' hk', hdraw, hno]
      exact ⟨by simp [sealable, hdraw, pairAt], s, hs', htx, hsalt, hcount⟩
    | some k =>
      have hk' : d'.routeKey peer r.1 = some k := hroute ▸ hk
      have hdraw : d.draws peer op = true := by simp [draws, hr, hk]
      have hseal : d.sealable peer maxLen op = decide (r.2.length ≤ maxLen) := by
        simp [sealable, hdraw, hr]
      rw [sealedWith_of_session hC hs hr hk, (hbuild C).2, buildTypedFrame_of_session hs' hk',
        hdraw, hno, hseal]
      refine ⟨?_, s.nextSeq.2, Table.getElem?_insert_self _ _ _, htx, hsalt, ?_⟩
      · by_cases hlen : r.2.length ≤ maxLen <;> simp [hlen, pairAt, htx, hsalt, hcount]
      · rw [Session.nextSeq, hcount]
        simp
  | none =>
    have hdraw : d.draws peer op = false := by simp [draws, hr]
    have hseal : d.sealable peer maxLen op = false := by simp [sealable, hdraw]
    have hfail : d.returnsFrame C peer op = false := by cases op <;> first | rfl | cases hr
    rw [sealedWith_of_fails hfail, hdraw, hseal]
    refine ⟨by simp [pairAt], ?_⟩
    cases op with
    | data payload flowHash nowUnix => cases hr
    | heartbeat => cases hr
    | rekey now =>
      refine ⟨s.rekey C now, ?_, ?_, hsalt, hcount⟩
      · simp [txStep, rekeySession, hs]
      · rw [isRekey, Function.iterate_succ_apply', ← htx]
        rfl
    | retable tables => exact ⟨s, hs, htx, hsalt, hcount⟩

theorem sealLog_eq_map {maxLen : ℕ} (hC : C.Lawful maxLen) {keys : SessionKeys} {g n : ℕ}
    {d : MeshData σ} (hd : d.AtCount C peer keys g n) (ops : List (TxOp σ)) :
    sealLog C peer d ops = (seals C peer maxLen g n d ops).map (pairAt C keys) := by
  induction ops generalizing g n d with
  | nil => rfl
  | cons op ops ih =>
    obtain ⟨hseal, hnext⟩ := step_of_atCount hC hd op
    rw [sealLog, seals, List.map_cons, hseal, ih hnext]

theorem generation_le {maxLen g n : ℕ} {d : MeshData σ} {ops : List (TxOp σ)} {x : ℕ × ℕ}
    (hx : some x ∈ seals C peer maxLen g n d ops) : x.1 ≤ g + rekeys ops := by
  induction ops generalizing g n d with
  | nil => simp [seals] at hx
  | cons op ops ih =>
    have hsum : rekeys (op :: ops) = isRekey op + rekeys ops := List.sum_cons
    rcases List.mem_cons.mp hx with hx | hx
    · split_ifs at hx
      cases hx
      simp
    · have hg := ih hx
      omega

/-- Two frames share no key with nonce exactly when those of one generation have different counts,
where the chain of keys tells the generations apart. -/
theorem disjoint_pairAt_iff {keys : SessionKeys} {o o' : Option (ℕ × ℕ)}
    (hchain : ∀ x ∈ o, ∀ x' ∈ o',
      C.rekeyChain^[x.1] keys.txKey = C.rekeyChain^[x'.1] keys.txKey → x.1 = x'.1) :
    Disjoint (pairAt C keys o) (pairAt C keys o') ↔ CountsDiffer o o' := by
  rw [Set.disjoint_left]
  constructor
  · intro hdis x hx x' hx' hg hn
    refine hdis ⟨x, hx, rfl⟩ ⟨x', hx', ?_⟩
    rw [hg, (u32_ofNat_eq_iff _ _).mpr hn]
  · rintro hdiff p ⟨x, hx, rfl⟩ ⟨x', hx', heq⟩
    obtain ⟨hkey, hnonce⟩ := Prod.mk.inj heq
    exact hdiff x hx x' hx' (hchain x hx x' hx' hkey)
      ((u32_ofNat_eq_iff _ _).mp ((Crypto.nonce_eq_iff _ _ _).mp hnonce))

/-- A session seals no two frames with one key and nonce exactly when no two frames sealed between
the same rekeys are a multiple of `2 ^ 32` sequence numbers apart. Only a chain of session keys that
does not return to an earlier key during the run is assumed. -/
theorem sealLog_disjoint_iff {maxLen : ℕ} (hC : C.Lawful maxLen) {keys : SessionKeys}
    {d : MeshData σ} (hd : d.sessions[peer]? = some (Session.new peer keys)) (ops : List (TxOp σ))
    (hchain : ∀ i ≤ rekeys ops, ∀ j ≤ rekeys ops,
      C.rekeyChain^[i] keys.txKey = C.rekeyChain^[j] keys.txKey → i = j) :
    (sealLog C peer d ops).Pairwise Disjoint ↔
      (seals C peer maxLen 0 0 d ops).Pairwise CountsDiffer := by
  have hcount : d.AtCount C peer keys 0 0 := ⟨_, hd, rfl, rfl, rfl⟩
  rw [sealLog_eq_map hC hcount, List.pairwise_map]
  refine List.Pairwise.iff_of_mem fun {o o'} ho ho' => disjoint_pairAt_iff ?_
  rintro x rfl x' rfl
  have hle := generation_le ho
  have hle' := generation_le ho'
  rw [zero_add] at hle hle'
  exact hchain _ hle _ hle'

theorem seals_replicate_heartbeat {maxLen : ℕ} (hC : C.Lawful maxLen) {keys : SessionKeys}
    {g n : ℕ} {d : MeshData σ} (hd : d.AtCount C peer keys g n)
    (hk : (d.keyDstTable[peer]?).isSome) (k : ℕ) :
    seals C peer maxLen g n d (List.replicate k .heartbeat) =
      (List.range k).map fun i => some (g, n + i) := by
  induction k generalizing n d with
  | zero => rfl
  | succ k ih =>
    obtain ⟨key, hkey⟩ := Option.isSome_iff_exists.mp hk
    obtain ⟨s, hs, -⟩ := id hd
    have hdraw : d.draws peer .heartbeat = true := by
      simp [draws, request, routeKey, hkey]
    have hnext := (step_of_atCount hC hd .heartbeat).2
    have htable : (d.txStep C peer .heartbeat).keyDstTable = d.keyDstTable := by
      have hroute : d.routeKey peer pathIdDefault = some key := by simpa [routeKey] using hkey
      rw [txStep, buildHeartbeatFrame, buildTypedFrame_of_session hs hroute]
    rw [hdraw] at hnext
    have hseal : d.sealable peer maxLen .heartbeat = true := by simp [sealable, hdraw, request]
    rw [List.replicate_succ, seals, hdraw, if_pos hseal,
      show isRekey (.heartbeat : TxOp σ) = 0 from rfl, Nat.add_zero,
      ih hnext (htable ▸ hk), List.range_succ_eq_map, List.map_cons, List.map_map]
    simp [Function.comp_def, Nat.add_assoc, Nat.add_comm 1]

/-- A node with a session to node 1 and a key to route frames there. -/
def heartbeatNode : MeshData Unit :=
  { selfNodeId := 2, keyDstTable := (∅ : Table UInt32 Bytes).insert 1 [],
    sessions := (∅ : Table UInt32 Session).insert 1 (Session.new 1 ⟨0, [], []⟩) }

theorem sealLog_wraps : ¬ (sealLog (Crypto.clear 0) 1 heartbeatNode
    (List.replicate (2 ^ 32 + 1) .heartbeat)).Pairwise Disjoint := by
  have hd : heartbeatNode.AtCount (Crypto.clear 0) 1 ⟨0, [], []⟩ 0 0 :=
    ⟨_, Table.getElem?_insert_self _ _ _, rfl, rfl, rfl⟩
  have hC := Crypto.clear_lawful 0
  rw [sealLog_eq_map hC hd, seals_replicate_heartbeat hC hd (by decide), List.map_map,
    List.pairwise_map, List.pairwise_iff_getElem]
  intro hdis
  have hlast := hdis 0 (2 ^ 32) (by rw [List.length_range]; norm_num)
    (by rw [List.length_range]; norm_num) (by norm_num)
  rw [List.getElem_range, List.getElem_range] at hlast
  exact Set.disjoint_left.mp hlast ⟨_, rfl, rfl⟩ ⟨_, rfl, rfl⟩

/-- Two heartbeats, a rekey and a data frame under the next key. -/
theorem sealLog_disjoint_over_rekey :
    seals (Crypto.clear 0) 1 0 0 0 heartbeatNode [.heartbeat, .heartbeat, .rekey 0, .data [] 0 0] =
        [some (0, 0), some (0, 1), none, some (1, 2)] ∧
      (sealLog (Crypto.clear 0) 1 heartbeatNode
        [.heartbeat, .heartbeat, .rekey 0, .data [] 0 0]).Pairwise Disjoint := by
  have hd : heartbeatNode.sessions[(1 : UInt32)]? = some (Session.new 1 ⟨0, [], []⟩) := by decide
  refine ⟨by decide, ?_⟩
  exact (sealLog_disjoint_iff (Crypto.clear_lawful 0) hd _ (by decide)).mpr (by decide)

end MeshData

end Rill
