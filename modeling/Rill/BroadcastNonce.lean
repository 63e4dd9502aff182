import Rill.MeshData

/-!
# Nonces of broadcast frames across a network

Every node that holds the broadcast key seals its broadcasts under that one key, with a zero salt
and its own counter, which starts at zero with the process. A run delivers keys, builds
broadcasts, renames and restarts nodes in any order. `sealEvents` has what the builds of the run
give to the cipher.
-/

namespace Rill

namespace BroadcastNet
variable {σ ι : Type} (C : Crypto)

inductive Op (ι : Type) where
  | setBroadcastKey (node : ι) (key : Bytes)
  | build (node : ι) (payload : Bytes)
  | setSelfNodeId (node : ι) (id : UInt32)
  | restart (node : ι) (id : UInt32)
  deriving DecidableEq

def broadcastHeader (id seq : UInt32) : MeshFrameHeader :=
  { packetType := PacketType.broadcast, toNodeId := broadcastNodeId, fromNodeId := id, seq := seq }

def step [DecidableEq ι] (nodes : ι → MeshData σ) : Op ι → ι → MeshData σ
  | .setBroadcastKey i key => Function.update nodes i ((nodes i).setBroadcastKey key)
  | .build i payload => Function.update nodes i ((nodes i).buildBroadcastFrame C payload).2
  | .setSelfNodeId i id => Function.update nodes i { nodes i with selfNodeId := id }
  | .restart i id => Function.update nodes i { selfNodeId := id }

def returnsFrame (nodes : ι → MeshData σ) : Op ι → Bool
  | .build i payload => ((nodes i).buildBroadcastFrame C payload).1.isOk
  | _ => false

def sealEvents [DecidableEq ι] : (ι → MeshData σ) → List (Op ι) → Set SealEvent
  | _, [] => ∅
  | nodes, op :: ops =>
    {e | C.Seals (fun C => returnsFrame C nodes op) e} ∪ sealEvents (step C nodes op) ops

def NonceUnique (log : Set SealEvent) : Prop :=
  ∀ e ∈ log, ∀ e' ∈ log, e.key = e'.key → e.nonce = e'.nonce →
    (e.aad, e.plaintext) = (e'.aad, e'.plaintext)

/-- A sealed broadcast: the key, the number of broadcasts the process built before it, the node
id it was sent from and its payload. -/
structure Use where
  key : Bytes
  count : ℕ
  source : UInt32
  payload : Bytes
  deriving DecidableEq

def Use.header (u : Use) : MeshFrameHeader := broadcastHeader u.source (UInt32.ofNat u.count)

def Use.event (u : Use) : SealEvent :=
  ⟨u.key, nonce 0 u.header.seq.toUInt64, Crypto.sealedAad u.header u.payload, u.payload⟩

/-- The part of a node that a broadcast depends on, with an unbounded counter. -/
structure Process where
  key : Option Bytes
  count : ℕ
  source : UInt32
  deriving DecidableEq

def Process.start (id : UInt32) : Process := ⟨none, 0, id⟩

def stepProcess [DecidableEq ι] (ps : ι → Process) : Op ι → ι → Process
  | .setBroadcastKey i key => Function.update ps i { ps i with key := some key }
  | .build i _ => Function.update ps i
      { ps i with count := (ps i).count + if (ps i).key.isSome then 1 else 0 }
  | .setSelfNodeId i id => Function.update ps i { ps i with source := id }
  | .restart i id => Function.update ps i (Process.start id)

def used (maxLen : ℕ) (ps : ι → Process) : Op ι → Option Use
  | .build i payload =>
    if payload.length ≤ maxLen then
      (ps i).key.map fun key => ⟨key, (ps i).count, (ps i).source, payload⟩
    else none
  | _ => none

def uses [DecidableEq ι] (maxLen : ℕ) : (ι → Process) → List (Op ι) → List Use
  | _, [] => []
  | ps, op :: ops => (used maxLen ps op).toList ++ uses maxLen (stepProcess ps op) ops

/-- Two broadcasts sealed under one key value at counts that agree modulo `2 ^ 32` are the same
broadcast of the same node. -/
def CountsApart (us : List Use) : Prop :=
  ∀ u ∈ us, ∀ u' ∈ us, u.key = u'.key → u.count % 2 ^ 32 = u'.count % 2 ^ 32 →
    u.source = u'.source ∧ u.payload = u'.payload

structure Tracks (d : MeshData σ) (p : Process) : Prop where
  key_eq : d.broadcastKey = p.key
  seq_eq : d.broadcastSeq = UInt32.ofNat p.count
  source_eq : d.selfNodeId = p.source

variable {C}

theorem tracks_start (id : UInt32) : Tracks ({ selfNodeId := id } : MeshData σ) (Process.start id) :=
  ⟨rfl, rfl, rfl⟩

theorem tracks_update [DecidableEq ι] {nodes : ι → MeshData σ} {ps : ι → Process}
    (h : ∀ i, Tracks (nodes i) (ps i)) {i : ι} {d : MeshData σ} {p : Process} (hd : Tracks d p) (j : ι) :
    Tracks (Function.update nodes i d j) (Function.update ps i p j) := by
  by_cases hj : j = i
  · subst hj
    simpa using hd
  · simpa [hj] using h j

theorem buildBroadcastFrame_of_none {d : MeshData σ} (hk : d.broadcastKey = none) (payload : Bytes) :
    d.buildBroadcastFrame C payload = (.error .noKeyDst, d) := by
  simp only [MeshData.buildBroadcastFrame, hk]

theorem buildBroadcastFrame_of_some {d : MeshData σ} {key : Bytes} (hk : d.broadcastKey = some key)
    (payload : Bytes) : d.buildBroadcastFrame C payload =
      ((C.buildFrame (broadcastHeader d.selfNodeId d.broadcastSeq) key key 0 payload).mapError
        fun _ => .aead, { d with broadcastSeq := d.broadcastSeq + 1 }) := by
  simp only [MeshData.buildBroadcastFrame, hk, broadcastHeader]

theorem tracks_build {d : MeshData σ} {p : Process} (h : Tracks d p) (payload : Bytes) :
    Tracks (d.buildBroadcastFrame C payload).2
      { p with count := p.count + if p.key.isSome then 1 else 0 } := by
  cases hk : d.broadcastKey with
  | none =>
    have hp : p.key = none := h.key_eq.symm.trans hk
    rw [buildBroadcastFrame_of_none hk]
    exact ⟨h.key_eq, by simpa [hp] using h.seq_eq, h.source_eq⟩
  | some key =>
    have hp : p.key = some key := h.key_eq.symm.trans hk
    rw [buildBroadcastFrame_of_some hk]
    exact ⟨h.key_eq, by simp [hp, h.seq_eq], h.source_eq⟩

theorem tracks_step [DecidableEq ι] {nodes : ι → MeshData σ} {ps : ι → Process}
    (h : ∀ i, Tracks (nodes i) (ps i)) (op : Op ι) (j : ι) :
    Tracks (step C nodes op j) (stepProcess ps op j) := by
  cases op with
  | setBroadcastKey i key =>
    have hd : Tracks ((nodes i).setBroadcastKey key) { ps i with key := some key } :=
      ⟨rfl, (h i).seq_eq, (h i).source_eq⟩
    exact tracks_update h hd j
  | build i payload => exact tracks_update h (tracks_build (h i) payload) j
  | setSelfNodeId i id =>
    have hd : Tracks { nodes i with selfNodeId := id } { ps i with source := id } :=
      ⟨(h i).key_eq, (h i).seq_eq, rfl⟩
    exact tracks_update h hd j
  | restart i id => exact tracks_update h (tracks_start id) j

theorem seals_iff {maxLen : ℕ} (hC : C.Lawful maxLen) {nodes : ι → MeshData σ} {ps : ι → Process}
    (h : ∀ i, Tracks (nodes i) (ps i)) (op : Op ι) (e : SealEvent) :
    C.Seals (fun C => returnsFrame C nodes op) e ↔ ∃ u ∈ used maxLen ps op, e = u.event := by
  cases op with
  | build i payload =>
    obtain ⟨hkey, hseq, hsource⟩ := h i
    simp only [returnsFrame, used]
    cases hk : (nodes i).broadcastKey with
    | none =>
      have hp : (ps i).key = none := hkey.symm.trans hk
      simp [buildBroadcastFrame_of_none hk, hp, Crypto.Seals, Except.isOk, Except.toBool]
    | some key =>
      have hp : (ps i).key = some key := hkey.symm.trans hk
      simp only [buildBroadcastFrame_of_some hk, MeshData.isOk_mapError, Crypto.seals_buildFrame_iff,
        MeshData.isOk_buildFrame hC, decide_eq_true_eq, hp, hseq, hsource]
      by_cases hlen : payload.length ≤ maxLen
      · simp [hlen, Use.event, Use.header, broadcastHeader]
      · simp [hlen]
  | setBroadcastKey i key => simp [returnsFrame, used, Crypto.Seals]
  | setSelfNodeId i id => simp [returnsFrame, used, Crypto.Seals]
  | restart i id => simp [returnsFrame, used, Crypto.Seals]

theorem mem_sealEvents [DecidableEq ι] {maxLen : ℕ} (hC : C.Lawful maxLen) {nodes : ι → MeshData σ}
    {ps : ι → Process} (h : ∀ i, Tracks (nodes i) (ps i)) (ops : List (Op ι)) (e : SealEvent) :
    e ∈ sealEvents C nodes ops ↔ ∃ u ∈ uses maxLen ps ops, e = u.event := by
  induction ops generalizing nodes ps with
  | nil => simp [sealEvents, uses]
  | cons op ops ih =>
    rw [sealEvents, Set.mem_union, ih (tracks_step h op), Set.mem_ofPred_eq, seals_iff hC h op, uses]
    simp only [List.mem_append, Option.mem_toList, Option.mem_def, or_and_right, exists_or]

theorem Use.nonce_eq_iff (u u' : Use) :
    u.event.nonce = u'.event.nonce ↔ u.count % 2 ^ 32 = u'.count % 2 ^ 32 :=
  (Crypto.nonce_eq_iff 0 _ _).trans (u32_ofNat_eq_iff _ _)

/-- At one sequence number the sealed pair determines the sender and the payload. -/
theorem Use.pair_eq_iff {u u' : Use} (hcount : u.count % 2 ^ 32 = u'.count % 2 ^ 32) :
    (u.event.aad, u.event.plaintext) = (u'.event.aad, u'.event.plaintext) ↔
      u.source = u'.source ∧ u.payload = u'.payload := by
  rw [Prod.mk.injEq]
  constructor
  · rintro ⟨haad, hpay⟩
    obtain ⟨-, -, -, -, hid, -⟩ := (MeshFrameHeader.authInput_eq_iff _ _).mp haad
    exact ⟨hid, hpay⟩
  · rintro ⟨hsource, hpay⟩
    have hheader : u.header = u'.header := by
      rw [Use.header, Use.header, hsource, (u32_ofNat_eq_iff _ _).mpr hcount]
    exact ⟨by rw [Use.event, Use.event, hheader, hpay], hpay⟩

/-- The initial network: every node is a fresh process. -/
def fresh (ids : ι → UInt32) : ι → MeshData σ := fun i => { selfNodeId := ids i }

/-- In a network of fresh nodes the cipher never meets a key and nonce with two different inputs
exactly when no two sealed broadcasts under one key have counts that agree modulo `2 ^ 32`,
repetitions of one broadcast of one node apart. -/
theorem nonceUnique_iff_countsApart [DecidableEq ι] {maxLen : ℕ} (hC : C.Lawful maxLen)
    (ids : ι → UInt32) (ops : List (Op ι)) :
    NonceUnique (sealEvents C (fresh ids : ι → MeshData σ) ops) ↔
      CountsApart (uses maxLen (fun i => Process.start (ids i)) ops) := by
  have hstart : ∀ i, Tracks (fresh ids i : MeshData σ) (Process.start (ids i)) :=
    fun i => tracks_start (ids i)
  have hmem := mem_sealEvents hC hstart ops
  constructor
  · intro hunique u hu u' hu' hkey hcount
    refine (Use.pair_eq_iff hcount).mp ?_
    exact hunique _ ((hmem _).mpr ⟨u, hu, rfl⟩) _ ((hmem _).mpr ⟨u', hu', rfl⟩) hkey
      ((Use.nonce_eq_iff u u').mpr hcount)
  · intro happart e he e' he' hkey hnonce
    obtain ⟨u, hu, rfl⟩ := (hmem e).mp he
    obtain ⟨u', hu', rfl⟩ := (hmem e').mp he'
    have hcount := (Use.nonce_eq_iff u u').mp hnonce
    exact (Use.pair_eq_iff hcount).mpr (happart u hu u' hu' hkey hcount)

/-- Two nodes with the same key each build their first broadcast. -/
theorem nonceUnique_fails_for_two_senders :
    ¬ NonceUnique (sealEvents (Crypto.clear 0) (fresh id : UInt32 → MeshData Unit)
      [.setBroadcastKey 1 [7], .setBroadcastKey 2 [7], .build 1 [], .build 2 []]) := by
  intro hunique
  have hstart : ∀ i, Tracks (fresh id i : MeshData Unit) (Process.start i) := tracks_start
  have hmem := mem_sealEvents (Crypto.clear_lawful 0) hstart
    [.setBroadcastKey 1 [7], .setBroadcastKey 2 [7], .build 1 [], .build 2 []]
  have hpair := hunique _ ((hmem _).mpr ⟨⟨[7], 0, 1, []⟩, by decide, rfl⟩) _
    ((hmem _).mpr ⟨⟨[7], 0, 2, []⟩, by decide, rfl⟩) rfl rfl
  exact absurd (Prod.mk.inj hpair).1 (by decide)

/-- One sender that restarts under a new key. -/
theorem nonceUnique_for_rotated_key :
    NonceUnique (sealEvents (Crypto.clear 0) (fresh id : UInt32 → MeshData Unit)
      [.setBroadcastKey 1 [7], .build 1 [], .restart 1 1, .setBroadcastKey 1 [8], .build 1 []]) :=
  (nonceUnique_iff_countsApart (Crypto.clear_lawful 0) id _).mpr (by unfold CountsApart; decide)

end BroadcastNet

end Rill
