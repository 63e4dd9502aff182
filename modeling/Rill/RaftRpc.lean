import Rill.Framing
import Rill.Transition

/-!
# Request and reply over a cached connection

`RaftTlsNetwork` keeps one connection to a peer replica and reuses it from call to call. A call
gives the stream up on any I/O error, but a timeout drops the future of the call where it stands and
leaves the stream as it is.

The model takes the calls apart at their await points: bytes enter and leave the stream one at a
time, the peer serves complete frames in order whenever it likes, and a timeout may come at any
moment.
-/

namespace Rill

namespace RaftRpc

structure Codec (Req Resp : Type) where
  toVec : Req → Option Bytes
  fromSlice : Bytes → Option Resp

/-- The reply to the `k`-th request the peer reads, and whether it closes the connection then. -/
abbrev Peer := ℕ → Bytes → Bytes × Bool

structure Conn where
  toPeer : List (ℕ × UInt8) := []
  fromPeer : Bytes := []
  closed : Bool := false
  deriving DecidableEq

inductive Phase where
  | connecting
  | writing (rest : Bytes)
  | reading (got : Bytes)
  deriving DecidableEq

structure Call (Req : Type) where
  id : ℕ
  req : Req
  phase : Phase
  deriving DecidableEq

inductive RpcError where
  | timeout
  | io
  deriving DecidableEq

structure Served where
  writers : List ℕ
  body : Bytes
  reply : Bytes
  deriving DecidableEq

structure Returned (Req Resp : Type) where
  id : ℕ
  req : Req
  result : Except RpcError Resp
  deriving DecidableEq

structure Network (Req Resp : Type) where
  stream : Option Conn := none
  pending : Option (Call Req) := none
  nextId : ℕ := 0
  served : List Served := []
  returned : List (Returned Req Resp) := []
  deriving DecidableEq

inductive Op (Req : Type) where
  | call (req : Req)
  | connect
  | connectFail
  | write
  | flush
  | writeFail
  | serve
  | read
  | readFail
  | finish
  | timeout
  deriving DecidableEq

variable {Req Resp : Type} (K : Codec Req Resp) (peer : Peer)

namespace Network

def answer (w : Network Req Resp) (c : Call Req) (result : Except RpcError Resp) :
    Network Req Resp :=
  { w with pending := none, returned := w.returned ++ [⟨c.id, c.req, result⟩] }

/-- The part of `call` between having a stream and the first byte of the request. -/
def sendRequest (w : Network Req Resp) (c : Call Req) : Network Req Resp :=
  match K.toVec c.req with
  | none => w.answer c (.error .io)
  | some body =>
    match writeFrame body with
    | none => { w with stream := none }.answer c (.error .io)
    | some frame => { w with pending := some { c with phase := .writing frame } }

/-- The peer reads the next request of the connection and writes its reply. -/
def serve (w : Network Req Resp) (conn : Conn) : Option (Network Req Resp) :=
  match readFrame (conn.toPeer.map Prod.snd) with
  | .incomplete => none
  | .tooLong => some { w with stream := some { conn with closed := true } }
  | .frame body _ =>
    let n := 4 + body.length
    let (reply, close) := peer w.served.length body
    let out := writeFrame reply
    some { w with
      stream := some
        { toPeer := conn.toPeer.drop n
          fromPeer := conn.fromPeer ++ out.getD []
          closed := close || out.isNone }
      served := w.served ++ [⟨(conn.toPeer.take n).map Prod.fst, body, reply⟩] }

def step (w : Network Req Resp) : Op Req → Option (Network Req Resp)
  | .call req =>
    if w.pending.isSome then none
    else
      let c : Call Req := ⟨w.nextId, req, .connecting⟩
      let w := { w with nextId := w.nextId + 1 }
      if w.stream.isSome then some (w.sendRequest K c) else some { w with pending := some c }
  | .connect =>
    match w.pending with
    | some ⟨id, req, .connecting⟩ =>
      some ({ w with stream := some {} }.sendRequest K ⟨id, req, .connecting⟩)
    | _ => none
  | .connectFail =>
    match w.pending with
    | some ⟨id, req, .connecting⟩ => some (w.answer ⟨id, req, .connecting⟩ (.error .io))
    | _ => none
  | .write =>
    match w.pending, w.stream with
    | some ⟨id, req, .writing (b :: rest)⟩, some conn =>
      some { w with
        stream := some { conn with toPeer := conn.toPeer ++ [(id, b)] }
        pending := some ⟨id, req, .writing rest⟩ }
    | _, _ => none
  | .flush =>
    match w.pending with
    | some ⟨id, req, .writing []⟩ => some { w with pending := some ⟨id, req, .reading []⟩ }
    | _ => none
  | .writeFail =>
    match w.pending with
    | some ⟨id, req, .writing rest⟩ =>
      some ({ w with stream := none }.answer ⟨id, req, .writing rest⟩ (.error .io))
    | _ => none
  | .serve =>
    match w.stream with
    | some conn => if conn.closed then none else w.serve peer conn
    | none => none
  | .read =>
    match w.pending, w.stream with
    | some ⟨id, req, .reading got⟩, some conn =>
      match readFrame got, conn.fromPeer with
      | .incomplete, b :: rest =>
        some { w with
          stream := some { conn with fromPeer := rest }
          pending := some ⟨id, req, .reading (got ++ [b])⟩ }
      | _, _ => none
    | _, _ => none
  | .readFail =>
    match w.pending with
    | some ⟨id, req, .reading got⟩ =>
      some ({ w with stream := none }.answer ⟨id, req, .reading got⟩ (.error .io))
    | _ => none
  | .finish =>
    match w.pending with
    | some ⟨id, req, .reading got⟩ =>
      match readFrame got with
      | .incomplete => none
      | .tooLong => some ({ w with stream := none }.answer ⟨id, req, .reading got⟩ (.error .io))
      | .frame reply _ =>
        match K.fromSlice reply with
        | none => some ({ w with stream := none }.answer ⟨id, req, .reading got⟩ (.error .io))
        | some resp => some (w.answer ⟨id, req, .reading got⟩ (.ok resp))
    | _ => none
  | .timeout =>
    match w.pending with
    | some c => some (w.answer c (.error .timeout))
    | none => none

/-- The peer computed this reply for the request of call `id` and for nothing else. -/
def ServedFor (w : Network Req Resp) (id : ℕ) (body reply : Bytes) : Prop :=
  ∃ s ∈ w.served, s.writers ≠ [] ∧ (∀ i ∈ s.writers, i = id) ∧ s.body = body ∧ s.reply = reply

/-- Every call that returned `Ok` returned the reply to its own request. -/
def Correlated (w : Network Req Resp) : Prop :=
  ∀ r ∈ w.returned, ∀ resp, r.result = .ok resp →
    ∃ body reply, K.toVec r.req = some body ∧ K.fromSlice reply = some resp ∧
      w.ServedFor r.id body reply

/-- A call that times out has not yet put a byte of its request on the stream. -/
def TimesOutUnsent (w : Network Req Resp) (op : Op Req) : Prop :=
  op = .timeout → ∀ c, w.pending = some c → c.phase = .connecting ∨
    ∃ body frame, K.toVec c.req = some body ∧ writeFrame body = some frame ∧
      c.phase = .writing frame

/-- Where the exchange of a call stands: the request is on its way to the peer, or the peer has
served it and the reply is on its way back. -/
def Exchange (w : Network Req Resp) (conn : Conn) (id : ℕ) (body frame written got : Bytes) : Prop :=
  (conn.toPeer = written.map (fun b => (id, b)) ∧ conn.fromPeer = [] ∧ got = []) ∨
  (written = frame ∧ conn.toPeer = [] ∧ ∃ reply, w.ServedFor id body reply ∧
    got ++ conn.fromPeer = (writeFrame reply).getD [])

def Idle (conn : Conn) : Prop := conn.toPeer = [] ∧ conn.fromPeer = []

def PhaseOk (w : Network Req Resp) (c : Call Req) : Prop :=
  match c.phase with
  | .connecting => w.stream = none
  | .writing rest => ∃ conn body frame written, w.stream = some conn ∧ K.toVec c.req = some body ∧
      writeFrame body = some frame ∧ frame = written ++ rest ∧
      w.Exchange conn c.id body frame written []
  | .reading got => ∃ conn body frame, w.stream = some conn ∧ K.toVec c.req = some body ∧
      writeFrame body = some frame ∧ w.Exchange conn c.id body frame frame got

structure Clean (w : Network Req Resp) : Prop where
  correlated : w.Correlated K
  idle : w.pending = none → ∀ conn, w.stream = some conn → Idle conn
  phase : ∀ c, w.pending = some c → w.PhaseOk K c

variable {K peer}

theorem clean_init : ({} : Network Req Resp).Clean K where
  correlated r hr := by simp at hr
  idle _ conn h := by cases h
  phase c h := by cases h

theorem correlated_answer_error {w : Network Req Resp} (hw : w.Correlated K) (c : Call Req)
    (e : RpcError) : (w.answer c (.error e)).Correlated K := by
  intro r hr resp hok
  rcases List.mem_append.mp hr with hr | hr
  · exact hw r hr resp hok
  · obtain rfl := List.mem_singleton.mp hr
    cases hok

theorem clean_answer_error {w : Network Req Resp} (hw : w.Correlated K) (c : Call Req) (e : RpcError)
    (hidle : ∀ conn, w.stream = some conn → Idle conn) : (w.answer c (.error e)).Clean K where
  correlated := correlated_answer_error hw c e
  idle _ := hidle
  phase c' h := by cases h

theorem clean_drop_stream {w : Network Req Resp} (hw : w.Correlated K) (c : Call Req) :
    ({ w with stream := none }.answer c (.error .io)).Clean K :=
  clean_answer_error (w := { w with stream := none }) hw c .io (fun _ h => by cases h)

theorem clean_sendRequest {w : Network Req Resp} (hw : w.Correlated K) {conn : Conn}
    (hs : w.stream = some conn) (hidle : Idle conn) (c : Call Req) : (w.sendRequest K c).Clean K := by
  cases hv : K.toVec c.req with
  | none =>
    simp only [sendRequest, hv]
    refine clean_answer_error hw c .io fun conn' h => ?_
    cases hs.symm.trans h
    exact hidle
  | some body =>
    cases hf : writeFrame body with
    | none =>
      simp only [sendRequest, hv, hf]
      exact clean_drop_stream hw c
    | some frame =>
      simp only [sendRequest, hv, hf]
      refine ⟨hw, fun h => by (cases h), fun c' h => ?_⟩
      cases h
      exact ⟨conn, body, frame, [], hs, hv, hf, rfl, Or.inl ⟨hidle.1, hidle.2, rfl⟩⟩

theorem correlated_mono {w w' : Network Req Resp} (hsub : w.served ⊆ w'.served)
    (hret : w'.returned = w.returned) (h : w.Correlated K) : w'.Correlated K := by
  intro r hr resp hok
  obtain ⟨body, reply, hv, hp, s, hs, hrest⟩ := h r (hret ▸ hr) resp hok
  exact ⟨body, reply, hv, hp, s, hsub hs, hrest⟩

theorem exchange_cases {w : Network Req Resp} {c : Call Req} (h : w.PhaseOk K c) {conn : Conn}
    (hs : w.stream = some conn) : ∃ body frame written got, K.toVec c.req = some body ∧
      writeFrame body = some frame ∧ written <+: frame ∧
      w.Exchange conn c.id body frame written got ∧
      ∀ (w' : Network Req Resp) conn', w'.stream = some conn' →
        w'.Exchange conn' c.id body frame written got → w'.PhaseOk K c := by
  unfold PhaseOk at h
  cases hp : c.phase with
  | connecting =>
    rw [hp] at h
    rw [h] at hs
    cases hs
  | writing rest =>
    rw [hp] at h
    obtain ⟨conn', body, frame, written, hs', hv, hf, hsplit, hex⟩ := h
    cases hs.symm.trans hs'
    refine ⟨body, frame, written, [], hv, hf, ⟨rest, hsplit.symm⟩, hex, fun w' conn' hs'' hex' => ?_⟩
    rw [PhaseOk, hp]
    exact ⟨conn', body, frame, written, hs'', hv, hf, hsplit, hex'⟩
  | reading got =>
    rw [hp] at h
    obtain ⟨conn', body, frame, hs', hv, hf, hex⟩ := h
    cases hs.symm.trans hs'
    refine ⟨body, frame, frame, got, hv, hf, List.prefix_rfl, hex, fun w' conn' hs'' hex' => ?_⟩
    rw [PhaseOk, hp]
    exact ⟨conn', body, frame, hs'', hv, hf, hex'⟩

theorem map_snd_tagged (id : ℕ) (l : Bytes) : (l.map fun b => (id, b)).map Prod.snd = l := by
  rw [List.map_map]
  exact List.map_id l

theorem exchange_serve {w w' : Network Req Resp} {conn : Conn} {id : ℕ}
    {body frame written got : Bytes} (hf : writeFrame body = some frame) (hpre : written <+: frame)
    (hex : w.Exchange conn id body frame written got) (hserve : w.serve peer conn = some w') :
    ∃ conn', w'.stream = some conn' ∧ w'.Exchange conn' id body frame written got := by
  rcases hex with ⟨hto, hfrom, rfl⟩ | ⟨-, hto, -⟩
  · unfold serve at hserve
    rw [hto, map_snd_tagged] at hserve
    by_cases hfull : written = frame
    · subst hfull
      have hread := readFrame_append hf []
      rw [List.append_nil] at hread
      rw [hread] at hserve
      split_ifs at hserve with hlong
      · cases hserve
        exact ⟨_, rfl, Or.inl ⟨rfl, hfrom, rfl⟩⟩
      · cases hserve
        have hlen := length_frame hf
        refine ⟨_, rfl, Or.inr ⟨rfl, ?_, (peer w.served.length body).1, ?_, ?_⟩⟩
        · simp [← hlen]
        · refine ⟨_, List.mem_append_right _ (List.mem_singleton_self _), ?_, ?_, rfl, rfl⟩
          · simp only [ne_eq, List.map_eq_nil_iff, List.take_eq_nil_iff, not_or]
            refine ⟨by omega, fun h => ?_⟩
            rw [h, List.length_nil] at hlen
            omega
          · intro i hi
            obtain ⟨p, hp, rfl⟩ := List.mem_map.mp hi
            obtain ⟨b, -, rfl⟩ := List.mem_map.mp (List.mem_of_mem_take hp)
            rfl
        · rw [hfrom]
          rfl
    · obtain ⟨rest, hrest⟩ := hpre
      have hk : written.length < frame.length := by
        rw [← hrest, List.length_append]
        have : rest ≠ [] := fun h => hfull (by rw [← hrest, h, List.append_nil])
        have := List.length_pos_iff.mpr this
        omega
      have htake : written = frame.take written.length := by rw [← hrest, List.take_left]
      have hno := readFrame_take_ne_frame hf hk
      rw [← htake] at hno
      cases hr : readFrame written with
      | incomplete =>
        rw [hr] at hserve
        cases hserve
      | tooLong =>
        rw [hr] at hserve
        cases hserve
        exact ⟨_, rfl, Or.inl ⟨rfl, hfrom, rfl⟩⟩
      | frame b r => exact absurd hr (hno b r)
  · unfold serve at hserve
    rw [hto] at hserve
    cases hserve

theorem clean_call {w w' : Network Req Resp} (hw : w.Clean K) {req : Req}
    (hs : w.step K peer (.call req) = some w') : w'.Clean K := by
  simp only [step] at hs
  split_ifs at hs with hp hconn
  · obtain ⟨conn, hc⟩ := Option.isSome_iff_exists.mp hconn
    have hnone : w.pending = none := by simpa using hp
    cases hs
    exact clean_sendRequest (w := { w with nextId := w.nextId + 1 }) hw.correlated hc
      (hw.idle hnone conn hc) _
  · cases hs
    refine ⟨hw.correlated, fun h => by (cases h), fun c h => ?_⟩
    cases h
    exact (by simpa using hconn : w.stream = none)

theorem clean_connecting {w w' : Network Req Resp} (hw : w.Clean K) {op : Op Req}
    (hop : op = .connect ∨ op = .connectFail) (hs : w.step K peer op = some w') : w'.Clean K := by
  cases hp : w.pending with
  | none => rcases hop with rfl | rfl <;> simp [step, hp] at hs
  | some c =>
    obtain ⟨id, req, phase⟩ := c
    cases phase with
    | connecting =>
      have hnone : w.stream = none := hw.phase _ hp
      rcases hop with rfl | rfl <;> simp only [step, hp] at hs <;> cases hs
      · exact clean_sendRequest (w := { w with stream := some {} }) hw.correlated rfl ⟨rfl, rfl⟩ _
      · exact clean_answer_error hw.correlated _ _ (fun conn h => by rw [hnone] at h; cases h)
    | _ => rcases hop with rfl | rfl <;> simp [step, hp] at hs

theorem clean_write {w w' : Network Req Resp} (hw : w.Clean K)
    (hs : w.step K peer .write = some w') : w'.Clean K := by
  simp only [step] at hs
  split at hs
  · rename_i id req b rest conn hp hc
    cases hs
    refine ⟨hw.correlated, fun h => by (cases h), fun c h => ?_⟩
    cases h
    obtain ⟨conn', body, frame, written, hs', hv, hf, hsplit, hex⟩ := hw.phase _ hp
    cases hc.symm.trans hs'
    refine ⟨_, body, frame, written ++ [b], rfl, hv, hf, by simp [hsplit], ?_⟩
    rcases hex with ⟨hto, hfrom, -⟩ | ⟨hfull, -⟩
    · exact Or.inl ⟨by simp [hto], hfrom, rfl⟩
    · rw [hfull] at hsplit
      simp at hsplit
  · cases hs

theorem clean_flush {w w' : Network Req Resp} (hw : w.Clean K)
    (hs : w.step K peer .flush = some w') : w'.Clean K := by
  simp only [step] at hs
  split at hs
  · rename_i id req hp
    cases hs
    refine ⟨hw.correlated, fun h => by (cases h), fun c h => ?_⟩
    cases h
    obtain ⟨conn, body, frame, written, hs', hv, hf, hsplit, hex⟩ := hw.phase _ hp
    obtain rfl : frame = written := by simpa using hsplit
    exact ⟨conn, body, frame, hs', hv, hf, hex⟩
  · cases hs

theorem clean_serve {w w' : Network Req Resp} (hw : w.Clean K)
    (hs : w.step K peer .serve = some w') : w'.Clean K := by
  simp only [step] at hs
  cases hc : w.stream with
  | none => simp [hc] at hs
  | some conn =>
    simp only [hc] at hs
    split_ifs at hs
    have hkeep : w.served ⊆ w'.served ∧ w'.returned = w.returned ∧ w'.pending = w.pending := by
      unfold serve at hs
      split at hs
      · cases hs
      · cases hs
        exact ⟨List.Subset.refl _, rfl, rfl⟩
      · cases hs
        exact ⟨List.subset_append_left _ _, rfl, rfl⟩
    obtain ⟨hsub, hret, hpend⟩ := hkeep
    refine ⟨correlated_mono hsub hret hw.correlated, fun h => ?_, fun c h => ?_⟩
    · have hidle := hw.idle (hpend ▸ h) conn hc
      rw [serve, hidle.1] at hs
      cases hs
    · obtain ⟨body, frame, written, got, -, hf, hpre, hex, hback⟩ :=
        exchange_cases (hw.phase c (hpend ▸ h)) hc
      obtain ⟨conn', hc', hex'⟩ := exchange_serve hf hpre hex hs
      exact hback w' conn' hc' hex'

theorem clean_read {w w' : Network Req Resp} (hw : w.Clean K)
    (hs : w.step K peer .read = some w') : w'.Clean K := by
  simp only [step] at hs
  split at hs
  · rename_i id req got conn hp hc
    split at hs
    · rename_i b rest hinc hfrom
      cases hs
      refine ⟨hw.correlated, fun h => by (cases h), fun c h => ?_⟩
      cases h
      obtain ⟨conn', body, frame, hs', hv, hf, hex⟩ := hw.phase _ hp
      cases hc.symm.trans hs'
      refine ⟨_, body, frame, rfl, hv, hf, ?_⟩
      rcases hex with ⟨-, hnil, -⟩ | ⟨hfull, hto, reply, hserved, hreply⟩
      · rw [hnil] at hfrom
        cases hfrom
      · refine Or.inr ⟨hfull, hto, reply, hserved, ?_⟩
        rw [← hreply, hfrom]
        simp
    · cases hs
  · cases hs

theorem served_of_complete {w : Network Req Resp} {conn : Conn} {id : ℕ}
    {body frame got reply rest : Bytes} (hex : w.Exchange conn id body frame frame got)
    (hread : readFrame got = .frame reply rest) : w.ServedFor id body reply ∧ Idle conn := by
  rcases hex with ⟨-, -, rfl⟩ | ⟨-, hto, r, hserved, hreply⟩
  · cases hread
  · cases hf : writeFrame r with
    | none =>
      rw [hf, Option.getD_none, List.append_eq_nil_iff] at hreply
      rw [hreply.1] at hread
      cases hread
    | some f =>
      rw [hf, Option.getD_some] at hreply
      have htake : got = f.take got.length := by rw [← hreply, List.take_left]
      have hlen : ¬ got.length < f.length := by
        intro hlt
        rw [htake] at hread
        exact readFrame_take_ne_frame hf hlt _ _ hread
      have hnil : conn.fromPeer = [] := by
        rw [← hreply, List.length_append] at hlen
        exact List.length_eq_zero_iff.mp (by omega)
      rw [hnil, List.append_nil] at hreply
      have hback := readFrame_append hf []
      rw [List.append_nil, ← hreply, hread] at hback
      split_ifs at hback
      obtain ⟨rfl, -⟩ := FrameRead.frame.inj hback
      exact ⟨hserved, hto, hnil⟩

theorem clean_finish {w w' : Network Req Resp} (hw : w.Clean K)
    (hs : w.step K peer .finish = some w') : w'.Clean K := by
  simp only [step] at hs
  split at hs
  · rename_i id req got hp
    split at hs
    · cases hs
    · cases hs
      exact clean_drop_stream hw.correlated _
    · rename_i reply rest hread
      split at hs
      · cases hs
        exact clean_drop_stream hw.correlated _
      · rename_i resp hresp
        cases hs
        obtain ⟨conn, body, frame, hs', hv, hf, hex⟩ := hw.phase _ hp
        obtain ⟨hserved, hidle⟩ := served_of_complete hex hread
        refine ⟨fun r hr resp' hok => ?_, fun _ conn' h => ?_, fun c h => by (cases h)⟩
        · rcases List.mem_append.mp hr with hr | hr
          · exact hw.correlated r hr resp' hok
          · obtain rfl := List.mem_singleton.mp hr
            cases hok
            exact ⟨body, reply, hv, hresp, hserved⟩
        · cases hs'.symm.trans h
          exact hidle
  · cases hs

theorem clean_ioFail {w w' : Network Req Resp} (hw : w.Clean K) {op : Op Req}
    (hop : op = .writeFail ∨ op = .readFail) (hs : w.step K peer op = some w') : w'.Clean K := by
  rcases hop with rfl | rfl <;> simp only [step] at hs <;> split at hs
  · cases hs
    exact clean_drop_stream hw.correlated _
  · cases hs
  · cases hs
    exact clean_drop_stream hw.correlated _
  · cases hs

theorem clean_timeout {w w' : Network Req Resp} (hw : w.Clean K)
    (hg : w.TimesOutUnsent K (.timeout : Op Req)) (hs : w.step K peer .timeout = some w') :
    w'.Clean K := by
  simp only [step] at hs
  cases hp : w.pending with
  | none => simp [hp] at hs
  | some c =>
    simp only [hp] at hs
    cases hs
    refine clean_answer_error hw.correlated _ _ fun conn hc => ?_
    have hphase := hw.phase c hp
    rcases hg rfl c hp with hconn | ⟨body, frame, hv, hf, hwrite⟩
    · rw [PhaseOk, hconn] at hphase
      rw [hphase] at hc
      cases hc
    · rw [PhaseOk, hwrite] at hphase
      obtain ⟨conn', body', frame', written, hs', hv', hf', hsplit, hex⟩ := hphase
      cases hc.symm.trans hs'
      cases hv.symm.trans hv'
      cases hf.symm.trans hf'
      obtain rfl : written = [] := by simpa using hsplit
      rcases hex with ⟨hto, hfrom, -⟩ | ⟨hnil, -⟩
      · exact ⟨hto, hfrom⟩
      · have hlen := length_frame hf
        rw [← hnil, List.length_nil] at hlen
        omega

theorem clean_step {w w' : Network Req Resp} {op : Op Req} (hw : w.Clean K)
    (hg : w.TimesOutUnsent K op) (hs : w.step K peer op = some w') : w'.Clean K := by
  cases op with
  | call req => exact clean_call hw hs
  | connect => exact clean_connecting hw (Or.inl rfl) hs
  | connectFail => exact clean_connecting hw (Or.inr rfl) hs
  | write => exact clean_write hw hs
  | flush => exact clean_flush hw hs
  | writeFail => exact clean_ioFail hw (Or.inl rfl) hs
  | serve => exact clean_serve hw hs
  | read => exact clean_read hw hs
  | readFail => exact clean_ioFail hw (Or.inr rfl) hs
  | finish => exact clean_finish hw hs
  | timeout => exact clean_timeout hw hg hs

/-- If no call times out with bytes of its request on the stream, every call that returns `Ok`
returns the reply the peer computed for its own request. -/
theorem correlated_of_timesOutUnsent {ops : List (Op Req)} {w : Network Req Resp}
    (hg : Transition.Meets (step K peer) (TimesOutUnsent K) {} ops)
    (hr : Transition.run (step K peer) {} ops = some w) : w.Correlated K :=
  (Transition.invariant (fun _ _ _ hw hg hs => clean_step hw hg hs) clean_init hg hr).correlated

/-- Requests and replies of one byte; the peer echoes. -/
def echoCodec : Codec UInt8 UInt8 := ⟨fun b => some [b], List.head?⟩

def echoPeer : Peer := fun _ body => (body, false)

/-- The first call times out after its request is written; the second reads the reply to it. -/
def lateReply : List (Op UInt8) :=
  [.call 7, .connect, .write, .write, .write, .write, .write, .flush, .timeout,
    .call 8, .write, .write, .write, .write, .write, .flush, .serve,
    .read, .read, .read, .read, .read, .finish]

def afterLateReply : Network UInt8 UInt8 where
  stream := some { toPeer := [(1, 0), (1, 0), (1, 0), (1, 1), (1, 8)] }
  nextId := 2
  served := [⟨[0, 0, 0, 0, 0], [7], [7]⟩]
  returned := [⟨0, 7, .error .timeout⟩, ⟨1, 8, .ok 7⟩]

theorem not_correlated_afterLateReply :
    Transition.run (step echoCodec echoPeer) {} lateReply = some afterLateReply ∧
      ¬ afterLateReply.Correlated echoCodec := by
  refine ⟨by decide +kernel, fun h => ?_⟩
  obtain ⟨body, reply, -, -, s, hs, -, hid, -⟩ := h ⟨1, 8, .ok 7⟩ (by simp [afterLateReply]) 7 rfl
  obtain rfl := List.mem_singleton.mp hs
  exact absurd (hid 0 (by simp)) (by decide)

/-- A call that times out while connecting, and one that runs to its end. -/
def retried : List (Op UInt8) :=
  [.call 7, .timeout, .call 8, .connect, .write, .write, .write, .write, .write, .flush, .serve,
    .read, .read, .read, .read, .read, .finish]

def afterRetried : Network UInt8 UInt8 where
  stream := some {}
  nextId := 2
  served := [⟨[1, 1, 1, 1, 1], [8], [8]⟩]
  returned := [⟨0, 7, .error .timeout⟩, ⟨1, 8, .ok 8⟩]

theorem correlated_afterRetried :
    Transition.run (step echoCodec echoPeer) {} retried = some afterRetried ∧
      afterRetried.Correlated echoCodec := by
  have hr : Transition.run (step echoCodec echoPeer) {} retried = some afterRetried := by
    decide +kernel
  have hg : Transition.Meets (step echoCodec echoPeer) (TimesOutUnsent echoCodec) {} retried := by
    refine ⟨fun h => by (cases h), fun s hs => ?_⟩
    cases hs
    refine ⟨fun _ c hc => ?_, fun s _ => Transition.meets_of_forall (fun s a ha h => ?_) s⟩
    · cases hc
      exact Or.inl rfl
    · subst h
      exact absurd ha (by decide)
  exact ⟨hr, correlated_of_timesOutUnsent hg hr⟩

end Network

end RaftRpc

end Rill
